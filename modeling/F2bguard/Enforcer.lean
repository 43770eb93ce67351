/-
`Enforcer` (`server.py`): from the store to the tables.

`enforce` selects the desired addresses, takes out what is whitelisted, has the helper replace
the tables and records what came of it. Between the rows of `claims` and the tables lie the
selection over all clients, the exclusion, the request, its validation by the helper and the
helper's own exclusion; when `enforce` returns, the tables hold exactly what the store says
without what is whitelisted (`enforce_applies`).

`enforce` is called by every thread that has stored a write and by the periodic thread, under one
lock. Here it is a function of the world it finds; what other threads do between its steps is the
subject of `EnforcerSteps`.
-/
import F2bguard.HelperClient
import F2bguard.Desired

set_option autoImplicit false

namespace F2bguard.Enforcer

open F2bguard.PyText F2bguard.PyJson F2bguard.Ipaddress F2bguard.Networks F2bguard.Whitelist
open F2bguard.PfHelper F2bguard.HelperClient F2bguard.Claims
open F2bguard.Store (DB Served Desired DesiredFamily effective_ips effective_ips_spec
  client_effective_ips record_enforcement_attempt record_enforcement_success
  record_enforcement_failure)

/-- `time.time()`, where the claims are selected, where the attempt and its end are recorded, and
where the addresses of a client are counted afterwards. Nothing orders the readings: the clock of
the machine can be set. -/
structure Clock where
  selected : ℚ
  attempted : ℚ
  finished : ℚ
  counted : ℚ

/-- The calls of the store that an enforcement and the count after it make. Each is a transaction
of its own and can fail by itself. -/
inductive DatabaseCall
  | select
  | attempt
  | failure
  | success
  | count
  deriving DecidableEq

/-- What an enforcement meets: the clock, the calls of the store that raise `sqlite3.Error`, the
whitelist file as the server and the helper read it, the outcomes of `pfctl` and the connections
to the helper. -/
structure Surroundings where
  clock : Clock
  database_fails : DatabaseCall → Bool
  server_file : Except Failed Text
  helper_file : Except ReadFailure Text
  outcomes : ℕ → Outcome
  exchanges : List Exchange

/-- The store, the tables and `_last_index`, the whitelist of the last enforcement that succeeded.
-/
structure World where
  db : DB
  pf : PF
  last_index : Option NetworkIndex

/-- `Whitelist.reload`. A file that cannot be read and one that cannot be parsed end the
enforcement alike: without a whitelist nothing is sent to the helper. -/
def reload (file : Except Failed Text) : Except Failed (List IPNetwork) :=
  file.bind (fun data => (parse_whitelist data).mapError .enforcement_error)

/-- `str(exc) if isinstance(exc, EnforcementError) else "enforcement failed"`. It is recorded in
the store and shown to the client, so the text of a foreign exception is kept out of it. -/
def failure_message : Failed → Text
  | .enforcement_error error => error.message
  | _ => "enforcement failed".toList

/-- The body of the `try` statement of `enforce`. The whitelist is read anew each time. An address
of the store that the library cannot read would raise `ValueError` here; `exclude` is `none` then.
-/
def replace_desired (env : HelperClient.Env) (s : Surroundings) (desired_v4 desired_v6 : List Text)
    (pf : PF) : Except Failed (NetworkIndex × Response) × PF :=
  match reload s.server_file with
  | .error e => (.error e, pf)
  | .ok networks =>
      let index := NetworkIndex.of_networks networks
      match index.exclude desired_v4, index.exclude desired_v6 with
      | some v4, some v6 =>
          let (result, pf) := HelperClient.replace env s.outcomes s.helper_file s.exchanges v4 v6 pf
          (result.map (fun response => (index, response)), pf)
      | _, _ => (.error .other, pf)

/-- `Enforcer.enforce`, when nothing else happens meanwhile. Before the `try` statement two calls
of the store can fail and leave as they are; after it the attempt is on record, and its end is
recorded with the error or with the counts the helper reported. `_last_index` changes with a
success only. -/
def enforce (env : HelperClient.Env) (s : Surroundings) (w : World) : Except Failed ℕ × World :=
  if s.database_fails .select then (.error .database, w)
  else
    match effective_ips w.db s.clock.selected with
    | none => (.error .other, w)
    | some (desired_v4, desired_v6) =>
        if s.database_fails .attempt then (.error .database, w)
        else
          let desired_digest := env.sha256.hexdigest (join '\n' (desired_v4 ++ desired_v6))
          let db := record_enforcement_attempt w.db desired_digest s.clock.attempted
          match replace_desired env s desired_v4 desired_v6 w.pf with
          | (.error e, pf) =>
              if s.database_fails .failure then (.error .database, { w with db, pf })
              else
                let error := failure_message e
                (.error (.enforcement_error ⟨error⟩), { w with
                  db := record_enforcement_failure db desired_digest error s.clock.finished, pf })
          | (.ok (index, response), pf) =>
              if s.database_fails .success then (.error .database, { w with db, pf })
              else
                (.ok (response.applied_ipv4 + response.applied_ipv6), {
                  db := record_enforcement_success db desired_digest response.digest
                    response.applied_ipv4 response.applied_ipv6 s.clock.finished
                  pf, last_index := some index })

/-- `client_effective_count`: how many addresses of the client are in the tables by the whitelist
of the last success. A client without claims needs no whitelist. -/
def client_effective_count (s : Surroundings) (w : World) (client_id : Text) : Except Failed ℕ :=
  if s.database_fails .count then .error .database
  else
    match client_effective_ips w.db client_id s.clock.counted with
    | none => .error .other
    | some ([], []) => .ok 0
    | some (v4, v6) =>
        match w.last_index with
        | none => .error (.enforcement_error ⟨"no valid whitelist has been loaded".toList⟩)
        | some index =>
            match index.exclude v4, index.exclude v6 with
            | some v4, some v6 => .ok (v4.length + v6.length)
            | _, _ => .error .other

/-! ## The request

What the server keeps is what it sends, in an order the helper sorts into once more. The addresses
of the store are canonical texts of public addresses (`Served`), so the helper reads each of them
as the server wrote it, and its own exclusion finds nothing left. -/

/-- The desired addresses that are not whitelisted. -/
def kept (networks : List IPNetwork) (addresses : List IPAddress) : List IPAddress :=
  addresses.filter (fun a => ¬ networks.any (fun n => n.Contains a))

theorem mem_kept {networks : List IPNetwork} {addresses : List IPAddress} {a : IPAddress} :
    a ∈ kept networks addresses ↔ a ∈ addresses ∧ ¬ Covered networks a := by
  rw [kept, List.mem_filter, decide_eq_true_eq, List.any_eq_true, Covered]
  simp only [decide_eq_true_eq]

theorem exclude_texts (networks : List IPNetwork) (addresses : List IPAddress) :
    (NetworkIndex.of_networks networks).exclude (addresses.map IPAddress.str) =
      some ((kept networks addresses).map IPAddress.str) := by
  rw [exclude_eq_some]
  constructor
  · intro text htext
    obtain ⟨a, -, rfl⟩ := List.mem_map.mp htext
    rw [ip_address_str]
    rfl
  · have hcovered : ∀ a : IPAddress, literal_covered networks a.str =
        networks.any (fun n => n.Contains a) := by
      intro a
      rw [literal_covered, ip_address_str, Option.any_some]
    rw [List.filter_map, kept]
    simp only [Function.comp_def, hcovered]

/-- The addresses of the request, of both families. -/
def kept_families (networks : List IPNetwork) (v4 v6 : List IPAddress) :
    Families (List IPAddress) := ⟨kept networks v4, kept networks v6⟩

theorem requestable_kept {db : DB} {boundary : ℚ} {v4 v6 : List IPAddress}
    (networks : List IPNetwork) (h4 : DesiredFamily db boundary .four v4)
    (h6 : DesiredFamily db boundary .six v6)
    (hcount : v4.length + v6.length ≤ Store.MAX_TOTAL_CLAIMS) :
    Requestable (kept_families networks v4 v6) := by
  have hfamily : ∀ {version : Version} {addresses : List IPAddress},
      DesiredFamily db boundary version addresses →
        (∀ a ∈ kept networks addresses, a.version = version) ∧
        (∀ a ∈ kept networks addresses, a.is_protected = false) ∧
        (kept networks addresses).Nodup ∧
        (kept networks addresses).Pairwise (fun a b => a.toNat ≤ b.toNat) := by
    intro version addresses h
    refine ⟨fun a ha => ((h.mem_iff a).mp (List.mem_filter.mp ha).1).1,
      fun a ha => h.unprotected a (List.mem_filter.mp ha).1, h.nodup.filter _, h.sorted.filter _⟩
  have hle4 : (kept networks v4).length ≤ v4.length := List.length_filter_le _ _
  have hle6 : (kept networks v6).length ≤ v6.length := List.length_filter_le _ _
  refine ⟨?_, ?_, ?_, ?_, (Nat.add_le_add hle4 hle6).trans hcount⟩
  all_goals
    intro version
    cases version
  · exact (hfamily h4).1
  · exact (hfamily h6).1
  · exact (hfamily h4).2.1
  · exact (hfamily h6).2.1
  · exact (hfamily h4).2.2.1
  · exact (hfamily h6).2.2.1
  · exact (hfamily h4).2.2.2
  · exact (hfamily h6).2.2.2

/-- The helper keeps what the server has kept. -/
theorem effective_kept (networks : List IPNetwork) (addresses : List IPAddress) :
    effective (NetworkIndex.of_networks networks) (kept networks addresses) =
      kept networks addresses := by
  rw [effective, List.filter_eq_self]
  intro a ha
  rw [decide_eq_true_eq, contains_iff]
  exact (mem_kept.mp ha).2

/-! ## Enforcement

`enforce` returns only when the helper said that it replaced the tables, and the connection
carries one request and its answer. What the tables hold is then what `PfHelper.replace_spec` says
of this request. -/

/-- **What an enforcement does to the tables.** For every store that requests were posted to,
every whitelist that both sides read, every clock, and whatever the tables held before and happens
to the connections and the calls of `pfctl`: when `enforce` returns, the tables hold, each once,
exactly the addresses that some client claims for ever and that are not whitelisted; their number
is what is returned; and from the request the server built the helper excluded nothing more. -/
theorem enforce_applies (env : HelperClient.Env) (store : Store.Env) (s : Surroundings)
    (w w' : World) (count : ℕ) (data : Text) (networks : List IPNetwork)
    (hserved : Served store w.db) (hserver : s.server_file = .ok data)
    (hhelper : s.helper_file = .ok data) (hvalid : parse_whitelist data = .ok networks)
    (h : enforce env s w = (.ok count, w')) :
    ∃ tables : Families (List IPAddress),
      (∀ version, (tables.get version).Nodup ∧
        w'.pf.tables version = stdin_of IPAddress.str (tables.get version)) ∧
      (∀ version a, InTable (w'.pf.tables version) a ↔ a ∈ tables.get version) ∧
      (∀ version a, a ∈ tables.get version ↔ a.version = version ∧
        (∃ r ∈ w.db.claims.rows, r.permanent = 1 ∧
          (∀ t, r.expires_at = some t → s.clock.selected < t) ∧ r.ip = a.str) ∧
        ¬ Covered networks a) ∧
      count = tables.v4.length + tables.v6.length ∧
      (∃ desired_v4 desired_v6, effective_ips w.db s.clock.selected = some (desired_v4, desired_v6) ∧
        (NetworkIndex.of_networks networks).exclude desired_v4 = some (tables.v4.map IPAddress.str) ∧
        (NetworkIndex.of_networks networks).exclude desired_v6 = some (tables.v6.map IPAddress.str)) ∧
      parse_request (request_of tables) = .ok tables ∧
      read_whitelist s.helper_file = .ok networks ∧
      ∀ version, effective (NetworkIndex.of_networks networks) (tables.get version) =
        tables.get version := by
  obtain ⟨v4, v6, heffective, h4, h6, hcount⟩ := effective_ips_spec hserved s.clock.selected
  have hrequestable := requestable_kept networks h4 h6 hcount
  -- both sides read the same file
  have hread : read_whitelist s.helper_file = .ok networks := by
    rw [hhelper]
    exact (readers_agree data networks).mp hvalid
  -- an enforcement that returns has passed every call of the store
  unfold enforce at h
  split at h
  · cases h
  rw [heffective] at h
  dsimp only at h
  split at h
  · cases h
  -- the server takes out what is whitelisted
  unfold replace_desired at h
  rw [hserver, reload] at h
  dsimp only [Except.bind] at h
  rw [hvalid] at h
  dsimp only [Except.mapError] at h
  rw [exclude_texts, exclude_texts] at h
  dsimp only at h
  rcases hreplace : HelperClient.replace env s.outcomes s.helper_file s.exchanges
    ((kept networks v4).map IPAddress.str) ((kept networks v6).map IPAddress.str) w.pf
    with ⟨result, pf'⟩
  rw [hreplace] at h
  cases result with
  | error e =>
    dsimp only [Except.map] at h
    split at h <;> cases h
  | ok response =>
    dsimp only [Except.map] at h
    split at h
    · cases h
    obtain ⟨hsum, rfl⟩ := Prod.mk.inj h
    have hreplaced : Replaced env s.outcomes s.helper_file (kept_families networks v4 v6) response pf' :=
      replace_returns hrequestable hreplace
    obtain ⟨networks', hread', hresponse, hset⟩ := hreplaced.networks
    rw [hread] at hread'
    cases hread'
    -- so the helper finds nothing to take out
    have hsame : ∀ version, effective (NetworkIndex.of_networks networks)
        ((kept_families networks v4 v6).get version) = (kept_families networks v4 v6).get version := by
      intro version
      cases version <;> exact effective_kept networks _
    have htables : ∀ version, pf'.tables version =
        stdin_of IPAddress.str ((kept_families networks v4 v6).get version) := by
      intro version
      rw [hset version, Families.get_map, Families.get_map, hsame]
    refine ⟨kept_families networks v4 v6, fun version => ⟨hrequestable.nodup version, htables version⟩,
      fun version a => ?_, fun version a => ?_, ?_, ⟨_, _, heffective, exclude_texts networks v4,
        exclude_texts networks v6⟩, parse_request_of hrequestable, hread, hsame⟩
    · rw [htables, inTable_addresses]
    · cases version with
      | four =>
        change a ∈ kept networks v4 ↔ _
        rw [mem_kept, h4.mem_iff, and_assoc]
        rfl
      | six =>
        change a ∈ kept networks v6 ↔ _
        rw [mem_kept, h6.mem_iff, and_assoc]
        rfl
    · rw [← Except.ok.inj hsum, hresponse]
      have hlength : ∀ version, (effective (NetworkIndex.of_networks networks)
          ((kept_families networks v4 v6).get version)).length =
            ((kept_families networks v4 v6).get version).length :=
        fun version => by rw [hsame version]
      exact congrArg₂ (· + ·) (hlength .four) (hlength .six)

/-- An enforcement whose request fits, whose first connection does not break and whose replacement
succeeds returns. -/
theorem enforce_succeeds {env : HelperClient.Env} {s : Surroundings} {w : World} {data : Text}
    {networks : List IPNetwork} {v4 v6 : List IPAddress} {exchange : Exchange}
    {exchanges : List Exchange} {n : ℕ} {pf' : PF} {a : Applied}
    (hdatabase : ∀ call, s.database_fails call = false)
    (heffective : effective_ips w.db s.clock.selected =
      some (v4.map IPAddress.str, v6.map IPAddress.str))
    (haddresses : Requestable (kept_families networks v4 v6))
    (hfits : (line_of env (kept_families networks v4 v6)).length ≤ MAX_MESSAGE)
    (hserver : s.server_file = .ok data) (hvalid : parse_whitelist data = .ok networks)
    (hexchanges : s.exchanges = exchange :: exchanges)
    (hreceived : (line_of env (kept_families networks v4 v6)).length ≤ exchange.received)
    (hauthorized : exchange.authorized = true) (hreturned : exchange.returned = some n)
    (hn : MAX_HELPER_MESSAGE ≤ n)
    (h : PfHelper.replace env.sha256.hexdigest s.outcomes s.helper_file
      (request_of (kept_families networks v4 v6)) w.pf = (.ok a, pf')) :
    (enforce env s w).1 = .ok (a.applied_ipv4 + a.applied_ipv6) ∧ (enforce env s w).2.pf = pf' := by
  have hreplace := @replace_whole _ _ _ _ haddresses hfits _ exchanges _ hreceived hauthorized
    hreturned hn _ _ _ h
  have hdesired : replace_desired env s (v4.map IPAddress.str) (v6.map IPAddress.str) w.pf =
      (.ok (NetworkIndex.of_networks networks, response_of a), pf') := by
    rw [replace_desired, hserver, reload]
    dsimp only [Except.bind]
    rw [hvalid]
    dsimp only [Except.mapError]
    rw [exclude_texts, exclude_texts, hexchanges]
    dsimp only
    change (match HelperClient.replace env s.outcomes s.helper_file (exchange :: exchanges)
      ((kept networks v4).map IPAddress.str) ((kept networks v6).map IPAddress.str) w.pf with
      | (result, pf) => (result.map (fun response =>
          (NetworkIndex.of_networks networks, response)), pf)) = _
    rw [show HelperClient.replace env s.outcomes s.helper_file (exchange :: exchanges)
      ((kept networks v4).map IPAddress.str) ((kept networks v6).map IPAddress.str) w.pf =
        (.ok (response_of a), pf') from hreplace]
    rfl
  -- no call of the store fails
  rw [enforce, if_neg (by simp [hdatabase]), heffective]
  dsimp only
  rw [if_neg (by simp [hdatabase]), hdesired]
  dsimp only
  rw [if_neg (by simp [hdatabase])]
  exact ⟨rfl, rfl⟩

/-! Two claims of a client, one of them on a whitelisted address. -/

/-- The two digests the run below asks for. -/
def sample_sha256 : Sha256 where
  hexdigest text :=
    if text = "192.0.2.7".toList then
      "37dad677cf0b3997d0f5dd0d7889f84b11002e3ca73b0ae1bdb6d7e9b46fdb8a".toList
    else "d45ae80b789206130df484c3954882853b48a3717e6646080382dec35a8f43a4".toList
  length_eq := by
    intro text
    split <;> decide
  hex := by
    intro text
    split <;> decide

def sample_env : HelperClient.Env where
  floats := ⟨fun _ => [], fun _ => .nan⟩
  sha256 := sample_sha256
  max_depth_ge := three_le_max_depth

def sample_event (seq : ℕ) (ip : Text) : Json := .obj [
  ("event_id".toList, .str ("4c9184f3-7cf4-4f9d-8f4e-6b9a3b0d5c0".toList ++ to_dec seq)),
  ("seq".toList, .int seq), ("op".toList, .str "ban".toList), ("jail".toList, .str "sshd".toList),
  ("ban_id".toList, .str ("4c9184f3-7cf4-4f9d-8f4e-6b9a3b0d5d0".toList ++ to_dec seq)),
  ("ip".toList, .str ip), ("permanent".toList, .bool true)]

def sample_claim (seq : ℕ) (ip : Text) : Event where
  event_id := "4c9184f3-7cf4-4f9d-8f4e-6b9a3b0d5c0".toList ++ to_dec seq
  seq := seq
  op := .ban
  jail := "sshd".toList
  ban_id := "4c9184f3-7cf4-4f9d-8f4e-6b9a3b0d5d0".toList ++ to_dec seq
  ip := ip
  permanent := some true
  expires_at := none

def sample_events : List Event :=
  [sample_claim 1 "192.0.2.1".toList, sample_claim 2 "192.0.2.7".toList]

def sample_db : DB :=
  Store.run Store.sample_env DB.initial [.call ⟨"a".toList, .events sample_events, 10, 0⟩]

theorem sample_served : Served Store.sample_env sample_db := by
  refine ⟨_, ?_, rfl⟩
  intro a ha
  rw [List.mem_singleton] at ha
  subst ha
  exact Store.Request.Validated.events (show validate_events (.arr [sample_event 1 "192.0.2.1".toList,
    sample_event 2 "192.0.2.7".toList]) 10 = .ok sample_events by decide +kernel)

def sample_exchange : Exchange := ⟨1000, true, some MAX_HELPER_MESSAGE⟩

def sample_surroundings : Surroundings where
  clock := ⟨1, 1, 1, 1⟩
  database_fails _ := false
  server_file := .ok "# trusted\n192.0.2.0/30\n".toList
  helper_file := .ok "# trusted\n192.0.2.0/30\n".toList
  outcomes _ := .succeeded
  exchanges := [sample_exchange]

def sample_world : World where
  db := sample_db
  pf := ⟨fun _ => [], []⟩
  last_index := none

def sample_networks : List IPNetwork := [.v4 ⟨3221225984, 30, by decide, by decide, by decide⟩]

def sample_addresses : List IPAddress := [.v4 3221225985, .v4 3221225991]

theorem sample_requestable : Requestable (kept_families sample_networks sample_addresses []) := by
  refine ⟨?_, ?_, ?_, ?_, by decide +kernel⟩
  all_goals
    intro version
    cases version <;> decide +kernel

theorem enforce_applies_sample : ∃ tables : Families (List IPAddress),
    (enforce sample_env sample_surroundings sample_world).2.pf.tables .four =
        stdin_of IPAddress.str tables.v4 ∧
      1 = tables.v4.length + tables.v6.length := by
  have hvalid : parse_whitelist "# trusted\n192.0.2.0/30\n".toList = .ok sample_networks := by
    decide +kernel
  have hline : (line_of sample_env (kept_families sample_networks sample_addresses [])).length = 48 := by
    decide +kernel
  have hsize : MAX_MESSAGE = 4194304 := rfl
  have hreplace : (PfHelper.replace sample_env.sha256.hexdigest sample_surroundings.outcomes
      sample_surroundings.helper_file (request_of (kept_families sample_networks sample_addresses []))
      sample_world.pf).1 = .ok ⟨1, 0, sample_sha256.hexdigest "192.0.2.7".toList⟩ := by
    decide +kernel
  have heffective : effective_ips sample_world.db sample_surroundings.clock.selected =
      some (sample_addresses.map IPAddress.str, ([] : List IPAddress).map IPAddress.str) := by
    decide +kernel
  have hexchanges : sample_surroundings.exchanges = [sample_exchange] := rfl
  have hreturned : sample_exchange.returned = some MAX_HELPER_MESSAGE := rfl
  have hfits : (line_of sample_env (kept_families sample_networks sample_addresses [])).length ≤
      MAX_MESSAGE := by
    rw [hline, hsize]
    decide
  have hreceived : (line_of sample_env
      (kept_families sample_networks sample_addresses [])).length ≤ sample_exchange.received := by
    rw [hline]
    decide
  have hresult := (enforce_succeeds (fun _ => rfl) heffective sample_requestable hfits rfl hvalid hexchanges hreceived
    rfl hreturned le_rfl (Prod.ext hreplace rfl)).1
  have hpair := Prod.mk.eta (p := enforce sample_env sample_surroundings sample_world)
  rw [hresult] at hpair
  obtain ⟨tables, htext, -, -, hcount, -⟩ := enforce_applies sample_env Store.sample_env
    sample_surroundings sample_world (enforce sample_env sample_surroundings sample_world).2 (1 + 0)
    "# trusted\n192.0.2.0/30\n".toList sample_networks sample_served rfl rfl hvalid hpair.symm
  exact ⟨tables, (htext .four).2, hcount⟩

end F2bguard.Enforcer
