/-
What `enforcement_state` says.

Three functions write its columns around a step that can fail in many places. Here the
enforcements are taken apart into the attempt, which selects the desired addresses and records
their digest, and the end, which records what came of them; between two steps the other threads
may have changed the rest of the store, and the helper answers whatever it likes. In every state
of every run the applied columns are those of the replacement that was confirmed last, and
`last_error` tells how the last enforcement ended (`reachable_describes`).

With the helper of this repository and one whitelist for both, the two digests are equal after a
success exactly when nothing desired is whitelisted (`digests_equal_iff`).
-/
import F2bguard.Enforcer

set_option autoImplicit false

namespace F2bguard.Enforcer

open F2bguard.PyText F2bguard.Ipaddress F2bguard.Networks F2bguard.Whitelist
open F2bguard.PfHelper F2bguard.HelperClient
open F2bguard.Store (DB EnforcementState Served Desired DesiredFamily effective_ips
  effective_ips_spec record_enforcement_attempt record_enforcement_success
  record_enforcement_failure)

/-! ## Enforcements in two steps

The helper is any function of the two lists, so that what is said of the columns does not depend
on what the helper of this repository does. -/

/-- What `helper.replace` returns or raises for two lists, and the state it leaves. -/
abbrev Helper (σ : Type) := List Text → List Text → σ → Except Failed Response × σ

section Steps

variable {σ : Type}

/-- The body of the `try` statement, with any helper. It ends before the helper is asked when the
whitelist cannot be read. -/
def replace_by (file : Except Failed Text) (helper : Helper σ) (desired : List Text × List Text)
    (state : σ) : Except Failed (NetworkIndex × Response) × σ :=
  match reload file with
  | .error e => (.error e, state)
  | .ok networks =>
      let index := NetworkIndex.of_networks networks
      match index.exclude desired.1, index.exclude desired.2 with
      | some v4, some v6 =>
          let (result, state) := helper v4 v6 state
          (result.map (fun response => (index, response)), state)
      | _, _ => (.error .other, state)

/-- How an enforcement ended, and when that was recorded. -/
inductive Ended
  | confirmed (response : Response) (time : ℚ)
  | failed (error : Text) (time : ℚ)

/-- The store, the helper and `_last_index`; the lists of the enforcement that is under way, and
how those before it ended. -/
structure Stage (σ : Type) where
  db : DB
  helper : σ
  last_index : Option NetworkIndex := none
  desired : Option (List Text × List Text) := none
  ended : List Ended := []

/-- The digest of what is desired, before anything is taken out. -/
def desired_digest (env : HelperClient.Env) (desired : List Text × List Text) : Text :=
  env.sha256.hexdigest (join '\n' (desired.1 ++ desired.2))

/-- The first half of `enforce`: what is desired, and that it was tried. The applied columns stay.
-/
def Stage.attempt (env : HelperClient.Env) (desired : List Text × List Text) (time : ℚ)
    (s : Stage σ) : Stage σ :=
  { s with
    db := record_enforcement_attempt s.db (desired_digest env desired) time
    desired := some desired }

/-- The second half: the replacement and the record of its end. A failure keeps the applied
columns of the last success and sets the error. -/
def Stage.finish (env : HelperClient.Env) (file : Except Failed Text) (helper : Helper σ) (time : ℚ)
    (desired : List Text × List Text) (s : Stage σ) : Stage σ :=
  match replace_by file helper desired s.helper with
  | (.error e, state) =>
      { s with
        db := record_enforcement_failure s.db (desired_digest env desired) (failure_message e) time
        helper := state
        desired := none
        ended := s.ended ++ [.failed (failure_message e) time] }
  | (.ok (index, response), state) =>
      { db := record_enforcement_success s.db (desired_digest env desired) response.digest
          response.applied_ipv4 response.applied_ipv6 time
        helper := state
        last_index := some index
        desired := none
        ended := s.ended ++ [.confirmed response time] }

/-- One step of a run: other threads change the store, but not `enforcement_state`; or an
enforcement is attempted or ends. The lock admits one at a time. -/
inductive Step (env : HelperClient.Env) : Stage σ → Stage σ → Prop
  | store {s : Stage σ} (db : DB) (h : db.enforcement_state = s.db.enforcement_state) :
      Step env s { s with db }
  | attempt {s : Stage σ} {selected : ℚ} {desired : List Text × List Text} (time : ℚ)
      (hidle : s.desired = none) (hselect : effective_ips s.db selected = some desired) :
      Step env s (s.attempt env desired time)
  | finish {s : Stage σ} {desired : List Text × List Text} (file : Except Failed Text)
      (helper : Helper σ) (time : ℚ) (hdesired : s.desired = some desired) :
      Step env s (s.finish env file helper time desired)

/-- The states of the runs that start with an empty store. -/
def Reached (env : HelperClient.Env) (s : Stage σ) : Prop :=
  ∃ helper : σ, Relation.ReflTransGen (Step env) { db := DB.initial, helper } s

end Steps

/-- The body of `enforce` is the one with the helper of this repository. -/
theorem replace_desired_eq (env : HelperClient.Env) (s : Surroundings) (desired : List Text × List Text)
    (pf : PF) : replace_desired env s desired.1 desired.2 pf =
      replace_by s.server_file (HelperClient.replace env s.outcomes s.helper_file s.exchanges)
        desired pf := rfl

/-- An enforcement that nothing interrupts is an attempt and its end. -/
theorem enforce_eq_steps (env : HelperClient.Env) (s : Surroundings) (w : World) (ended : List Ended)
    {desired : List Text × List Text} (hdatabase : ∀ call, s.database_fails call = false)
    (hselect : effective_ips w.db s.clock.selected = some desired) :
    ∃ ended' : List Ended,
      (({ w with desired := none, ended, helper := w.pf } : Stage PF).attempt env desired
          s.clock.attempted).finish env s.server_file
        (HelperClient.replace env s.outcomes s.helper_file s.exchanges) s.clock.finished desired =
      { db := (enforce env s w).2.db, helper := (enforce env s w).2.pf,
        last_index := (enforce env s w).2.last_index, desired := none, ended := ended' } := by
  obtain ⟨v4, v6⟩ := desired
  unfold enforce Stage.finish Stage.attempt
  rw [if_neg (by simp [hdatabase]), hselect]
  dsimp only
  rw [if_neg (by simp [hdatabase]), replace_desired_eq env s (v4, v6)]
  rcases replace_by s.server_file
    (HelperClient.replace env s.outcomes s.helper_file s.exchanges) (v4, v6) w.pf with ⟨result, pf⟩
  cases result with
  | error e =>
    dsimp only
    rw [if_neg (by simp [hdatabase])]
    exact ⟨_, rfl⟩
  | ok result =>
    obtain ⟨index, response⟩ := result
    dsimp only
    rw [if_neg (by simp [hdatabase])]
    exact ⟨_, rfl⟩

/-! ## The columns

The columns are functions of the list of enforcements that have ended; a step keeps them so. -/

def Ended.confirmation : Ended → Option (Response × ℚ)
  | .confirmed response time => some (response, time)
  | .failed _ _ => none

/-- The replacement that the helper confirmed last, and when that was recorded. -/
def latest (ended : List Ended) : Option (Response × ℚ) :=
  (ended.filterMap Ended.confirmation).getLast?

/-- What the columns say about the enforcements that have ended. -/
structure Describes (ended : List Ended) (e : EnforcementState) : Prop where
  applied_digest : e.applied_digest = (latest ended).bind (fun c => c.1.digest)
  applied_ipv4 : e.applied_ipv4 = ((latest ended).map (fun c => c.1.applied_ipv4)).getD 0
  applied_ipv6 : e.applied_ipv6 = ((latest ended).map (fun c => c.1.applied_ipv6)).getD 0
  last_success : e.last_success = (latest ended).map Prod.snd
  last_error : e.last_error = none ↔
    ∀ last, ended.getLast? = some last → ∃ response time, last = .confirmed response time

theorem Describes.initial : Describes [] {} :=
  ⟨rfl, rfl, rfl, rfl, fun _ _ hlast => (by cases hlast), fun _ => rfl⟩

theorem latest_failed (ended : List Ended) (error : Text) (time : ℚ) :
    latest (ended ++ [.failed error time]) = latest ended := by
  rw [latest, List.filterMap_append, List.filterMap_cons_none rfl, List.filterMap_nil, List.append_nil,
    latest]

theorem latest_confirmed (ended : List Ended) (response : Response) (time : ℚ) :
    latest (ended ++ [.confirmed response time]) = some (response, time) := by
  rw [latest, List.filterMap_append]
  exact List.getLast?_concat

section Describes

variable {ended : List Ended} {db : DB}

/-- An attempt touches none of these columns. -/
theorem Describes.attempt (h : Describes ended db.enforcement_state) (digest : Text) (time : ℚ) :
    Describes ended (record_enforcement_attempt db digest time).enforcement_state :=
  ⟨h.applied_digest, h.applied_ipv4, h.applied_ipv6, h.last_success, h.last_error⟩

theorem Describes.failure (h : Describes ended db.enforcement_state) (digest error : Text) (time : ℚ) :
    Describes (ended ++ [.failed error time])
      (record_enforcement_failure db digest error time).enforcement_state := by
  refine ⟨?_, ?_, ?_, ?_, ?_⟩
  · rw [latest_failed]
    exact h.applied_digest
  · rw [latest_failed]
    exact h.applied_ipv4
  · rw [latest_failed]
    exact h.applied_ipv6
  · rw [latest_failed]
    exact h.last_success
  · rw [List.getLast?_concat]
    constructor
    · intro hnone
      cases hnone
    · intro hlast
      obtain ⟨response, t, hconfirmed⟩ := hlast _ rfl
      cases hconfirmed

theorem Describes.success (digest : Text) (response : Response) (time : ℚ) :
    Describes (ended ++ [.confirmed response time])
      (record_enforcement_success db digest response.digest response.applied_ipv4
        response.applied_ipv6 time).enforcement_state := by
  refine ⟨?_, ?_, ?_, ?_, ?_⟩
  · rw [latest_confirmed]
    rfl
  · rw [latest_confirmed]
    rfl
  · rw [latest_confirmed]
    rfl
  · rw [latest_confirmed]
    rfl
  · rw [List.getLast?_concat]
    refine ⟨fun _ last hlast => ?_, fun _ => rfl⟩
    cases hlast
    exact ⟨response, time, rfl⟩

end Describes

theorem Step.describes {σ : Type} {env : HelperClient.Env} {s s' : Stage σ} (hstep : Step env s s')
    (h : Describes s.ended s.db.enforcement_state) : Describes s'.ended s'.db.enforcement_state := by
  cases hstep with
  | store db hsame =>
    dsimp only
    rwa [hsame]
  | attempt time hidle hselect => exact h.attempt _ _
  | @finish desired file helper time hdesired =>
    unfold Stage.finish
    rcases replace_by file helper desired s.helper with ⟨result, state⟩
    cases result with
    | error e => exact h.failure _ _ _
    | ok result => exact Describes.success _ _ _

/-- In every state of every run the columns describe the enforcements that have ended. -/
theorem reachable_describes {σ : Type} {env : HelperClient.Env} {s : Stage σ} (h : Reached env s) :
    Describes s.ended s.db.enforcement_state := by
  obtain ⟨helper, hrun⟩ := h
  induction hrun with
  | refl => exact Describes.initial
  | tail _ hstep ih => exact hstep.describes ih

/-- Without a valid whitelist the helper is not asked: what it would answer makes no difference,
and its state stays as it is. -/
theorem finish_without_whitelist {σ : Type} (env : HelperClient.Env) (s : Stage σ)
    {file : Except Failed Text} {e : Failed} (hfile : reload file = .error e) (helper : Helper σ)
    (time : ℚ) (desired : List Text × List Text) :
    (s.finish env file helper time desired).helper = s.helper ∧
      ∀ helper' : Helper σ, s.finish env file helper' time desired =
        s.finish env file helper time desired := by
  have hskip : ∀ helper : Helper σ, replace_by file helper desired s.helper = (.error e, s.helper) := by
    intro helper
    rw [replace_by, hfile]
  refine ⟨?_, fun helper' => ?_⟩
  · rw [Stage.finish, hskip]
  · rw [Stage.finish, Stage.finish, hskip, hskip]

/-! ## The digests

One digest is of the addresses the store wants, the other of those that were put into the tables.
They differ by what the whitelist has taken out. -/

theorem join_injective {parts parts' : List Text} (h : ∀ p ∈ parts, p ≠ [] ∧ '\n' ∉ p)
    (h' : ∀ p ∈ parts', p ≠ [] ∧ '\n' ∉ p) (heq : join '\n' parts = join '\n' parts') :
    parts = parts' := by
  -- the text of no parts is empty, that of some parts is not
  have hempty : ∀ {parts : List Text}, (∀ p ∈ parts, p ≠ [] ∧ '\n' ∉ p) →
      join '\n' parts = [] → parts = [] := by
    intro parts h hnil
    cases parts with
    | nil => rfl
    | cons p ps =>
      have hsplit := split_join (List.cons_ne_nil p ps) (fun q hq => (h q hq).2)
      rw [hnil] at hsplit
      exact absurd (List.cons.inj hsplit).1.symm (h p List.mem_cons_self).1
  by_cases hne : parts = []
  · rw [hne] at heq
    rw [hne, hempty h' heq.symm]
  · have hne' : parts' ≠ [] := by
      rintro rfl
      exact hne (hempty h heq)
    rw [← split_join hne (fun p hp => (h p hp).2), heq, split_join hne' (fun p hp => (h' p hp).2)]

theorem address_text (addresses : List IPAddress) :
    ∀ p ∈ addresses.map IPAddress.str, p ≠ [] ∧ '\n' ∉ p := by
  rw [List.forall_mem_map]
  intro a _
  refine ⟨fun hnil => ?_, IPAddress.not_mem_str (by decide) (by decide) (by decide)⟩
  have hparse := ip_address_str a
  rw [hnil, show ip_address [] = none by decide] at hparse
  cases hparse

theorem kept_eq_iff {networks : List IPNetwork} {addresses : List IPAddress} :
    kept networks addresses = addresses ↔ ∀ a ∈ addresses, ¬ Covered networks a := by
  constructor
  · intro heq a ha
    rw [← heq] at ha
    exact (mem_kept.mp ha).2
  · intro huncovered
    rw [kept, List.filter_eq_self]
    intro a ha
    rw [decide_eq_true_eq, List.any_eq_true]
    rintro ⟨n, hn, hcontains⟩
    exact huncovered a ha ⟨n, hn, of_decide_eq_true hcontains⟩

/-- What is sent is what is desired exactly when nothing of it is taken out. -/
theorem kept_append_iff {networks : List IPNetwork} {v4 v6 : List IPAddress} :
    kept networks v4 ++ kept networks v6 = v4 ++ v6 ↔
      ∀ a ∈ v4 ++ v6, ¬ Covered networks a := by
  simp only [List.forall_mem_append, ← kept_eq_iff]
  constructor
  · intro heq
    have h4 : (kept networks v4).length ≤ v4.length := List.length_filter_le _ _
    have h6 : (kept networks v6).length ≤ v6.length := List.length_filter_le _ _
    have hlength := congrArg List.length heq
    rw [List.length_append, List.length_append] at hlength
    exact List.append_inj heq (by omega)
  · rintro ⟨h4, h6⟩
    rw [h4, h6]

/-- An enforcement of what a store said at some time, with the helper of this repository and the
same whitelist on both sides, that ends in success. If the hash function tells the text of the
desired addresses from that of the requested ones, the two digests are equal exactly when none of
the desired addresses is whitelisted. -/
theorem digests_equal_iff {env : HelperClient.Env} {store : Store.Env} {db : DB} {selected : ℚ}
    (hserved : Served store db) {desired requested : List Text × List Text}
    (hselect : effective_ips db selected = some desired) {data : Text} {networks : List IPNetwork}
    (hvalid : parse_whitelist data = .ok networks)
    (hv4 : (NetworkIndex.of_networks networks).exclude desired.1 = some requested.1)
    (hv6 : (NetworkIndex.of_networks networks).exclude desired.2 = some requested.2)
    (hsha : desired_digest env desired = desired_digest env requested →
      join '\n' (desired.1 ++ desired.2) = join '\n' (requested.1 ++ requested.2))
    {s : Stage PF} {outcomes : ℕ → Outcome} {exchanges : List Exchange} {time : ℚ}
    {response : Response}
    (hended : (s.finish env (.ok data) (HelperClient.replace env outcomes (.ok data) exchanges) time
      desired).ended = s.ended ++ [.confirmed response time]) :
    let e := (s.finish env (.ok data) (HelperClient.replace env outcomes (.ok data) exchanges) time
      desired).db.enforcement_state
    e.desired_digest = e.applied_digest ↔ ∀ a, Desired db selected a → ¬ Covered networks a := by
  obtain ⟨v4, v6, heffective, h4, h6, hcount⟩ := effective_ips_spec hserved selected
  rw [hselect] at heffective
  cases heffective
  have hrequestable := requestable_kept networks h4 h6 hcount
  dsimp only at hv4 hv6
  rw [exclude_texts] at hv4 hv6
  obtain ⟨texts4, texts6⟩ := requested
  dsimp only at hv4 hv6
  cases hv4
  cases hv6
  -- server and helper read the same list
  have hread : read_whitelist (.ok data) = .ok networks := (readers_agree data networks).mp hvalid
  have hreload : reload (.ok data) = .ok networks := by
    rw [reload]
    dsimp only [Except.bind]
    rw [hvalid]
    rfl
  have hby : replace_by (.ok data) (HelperClient.replace env outcomes (.ok data) exchanges)
      (v4.map IPAddress.str, v6.map IPAddress.str) s.helper =
        ((HelperClient.replace env outcomes (.ok data) exchanges ((kept networks v4).map IPAddress.str)
            ((kept networks v6).map IPAddress.str) s.helper).1.map
              (fun response => (NetworkIndex.of_networks networks, response)),
          (HelperClient.replace env outcomes (.ok data) exchanges
            ((kept networks v4).map IPAddress.str) ((kept networks v6).map IPAddress.str) s.helper).2) := by
    rw [replace_by, hreload]
    dsimp only
    rw [exclude_texts, exclude_texts]
  -- the two families together are the desired addresses
  have hdesired : (∀ a, Desired db selected a → ¬ Covered networks a) ↔
      ∀ a ∈ v4 ++ v6, ¬ Covered networks a := by
    constructor
    · intro h a ha
      rcases List.mem_append.mp ha with ha | ha
      · exact h a ((h4.mem_iff a).mp ha).2
      · exact h a ((h6.mem_iff a).mp ha).2
    · intro h a ha
      refine h a (List.mem_append.mpr ?_)
      rcases hversion : a.version with _ | _
      · exact .inl ((h4.mem_iff a).mpr ⟨hversion, ha⟩)
      · exact .inr ((h6.mem_iff a).mpr ⟨hversion, ha⟩)
  rcases hreplace : HelperClient.replace env outcomes (.ok data) exchanges
    ((kept networks v4).map IPAddress.str) ((kept networks v6).map IPAddress.str) s.helper
    with ⟨result, pf'⟩
  rw [hreplace] at hby
  cases result with
  -- an enforcement that failed is not confirmed
  | error e =>
    unfold Stage.finish at hended
    rw [hby] at hended
    cases (List.append_cancel_left hended)
  | ok r =>
    have hreplaced : Replaced env outcomes (.ok data) (kept_families networks v4 v6) r pf' :=
      replace_returns hrequestable hreplace
    obtain ⟨networks', hread', hresponse, -⟩ := hreplaced.networks
    rw [hread] at hread'
    cases hread'
    -- the helper excludes nothing more, so its digest is that of the request
    have hdigest : r.digest = some (desired_digest env
        ((kept networks v4).map IPAddress.str, (kept networks v6).map IPAddress.str)) := by
      have h4same := effective_kept networks v4
      have h6same := effective_kept networks v6
      rw [hresponse, response_of]
      unfold applied desired_digest Families.map kept_families
      dsimp only
      rw [h4same, h6same, List.map_append]
    unfold Stage.finish
    rw [hby]
    dsimp only [Except.map, record_enforcement_success]
    rw [hdigest, Option.some_inj, hdesired, ← kept_append_iff]
    constructor
    · intro heq
      -- no address contains the separator
      have htexts := join_injective
        (by rw [← List.map_append]; exact address_text _)
        (by rw [← List.map_append]; exact address_text _) (hsha heq)
      rw [← List.map_append, ← List.map_append] at htexts
      exact (List.map_injective_iff.mpr IPAddress.str_injective htexts).symm
    · intro heq
      unfold desired_digest
      dsimp only
      rw [← List.map_append, ← List.map_append, heq]

/-- **What `enforcement_state` says is so.** For every run, whatever is in the store, the
whitelist file and the answers of the helper: the columns describe the enforcements that have
ended, and without a valid whitelist the helper is not asked. After a success with the helper of
this repository the digests tell whether something desired is whitelisted. -/
theorem enforcement_state_describes (env : HelperClient.Env) (store : Store.Env) :
    (∀ (σ : Type) (s : Stage σ), Reached env s → Describes s.ended s.db.enforcement_state) ∧
    (∀ (σ : Type) (s : Stage σ) (file : Except Failed Text) (e : Failed) (helper : Helper σ) (time : ℚ)
      (desired : List Text × List Text), reload file = .error e →
      (s.finish env file helper time desired).helper = s.helper ∧
        ∀ helper' : Helper σ, s.finish env file helper' time desired =
          s.finish env file helper time desired) ∧
    (∀ (db : DB) (selected : ℚ) (desired requested : List Text × List Text) (data : Text)
      (networks : List IPNetwork) (s : Stage PF) (outcomes : ℕ → Outcome) (exchanges : List Exchange)
      (time : ℚ) (response : Response), Served store db → effective_ips db selected = some desired →
      parse_whitelist data = .ok networks →
      (NetworkIndex.of_networks networks).exclude desired.1 = some requested.1 →
      (NetworkIndex.of_networks networks).exclude desired.2 = some requested.2 →
      (desired_digest env desired = desired_digest env requested →
        join '\n' (desired.1 ++ desired.2) = join '\n' (requested.1 ++ requested.2)) →
      (s.finish env (.ok data) (HelperClient.replace env outcomes (.ok data) exchanges) time
        desired).ended = s.ended ++ [.confirmed response time] →
      let e := (s.finish env (.ok data) (HelperClient.replace env outcomes (.ok data) exchanges) time
        desired).db.enforcement_state
      (e.desired_digest = e.applied_digest ↔ ∀ a, Desired db selected a → ¬ Covered networks a)) :=
  ⟨fun _ _ h => reachable_describes h,
    fun _ s _ _ helper time desired hfile => finish_without_whitelist env s hfile helper time desired,
    fun _ _ _ _ _ _ _ _ _ _ _ hserved hselect hvalid hv4 hv6 hsha hended =>
      digests_equal_iff hserved hselect hvalid hv4 hv6 hsha hended⟩

/-- What the helper confirms is recorded. -/
theorem finish_confirmed {σ : Type} {env : HelperClient.Env} {s : Stage σ} {file : Except Failed Text}
    {helper : Helper σ} {time : ℚ} {desired : List Text × List Text} {v4 v6 : List Text}
    {networks : List IPNetwork} {response : Response} {state : σ} (hfile : reload file = .ok networks)
    (hv4 : (NetworkIndex.of_networks networks).exclude desired.1 = some v4)
    (hv6 : (NetworkIndex.of_networks networks).exclude desired.2 = some v6)
    (hhelper : helper v4 v6 s.helper = (.ok response, state)) :
    (s.finish env file helper time desired).ended = s.ended ++ [.confirmed response time] := by
  have hby : replace_by file helper desired s.helper =
      (.ok (NetworkIndex.of_networks networks, response), state) := by
    rw [replace_by, hfile]
    dsimp only
    rw [hv4, hv6]
    dsimp only
    rw [hhelper]
    rfl
  rw [Stage.finish, hby]

/-- The helper takes the request of the sample and confirms it. -/
theorem sample_replaced : ∃ response pf', HelperClient.replace sample_env sample_surroundings.outcomes
    sample_surroundings.helper_file sample_surroundings.exchanges
    ["192.0.2.7".toList] [] sample_world.pf = (.ok response, pf') := by
  have hline : (line_of sample_env (kept_families sample_networks sample_addresses [])).length = 48 := by
    decide +kernel
  have hsize : MAX_MESSAGE = 4194304 := rfl
  have hreplace : (PfHelper.replace sample_env.sha256.hexdigest sample_surroundings.outcomes
      sample_surroundings.helper_file (request_of (kept_families sample_networks sample_addresses []))
      sample_world.pf).1 = .ok ⟨1, 0, sample_sha256.hexdigest "192.0.2.7".toList⟩ := by
    decide +kernel
  have hreturned : sample_exchange.returned = some MAX_HELPER_MESSAGE := rfl
  have hfits : (line_of sample_env (kept_families sample_networks sample_addresses [])).length ≤
      MAX_MESSAGE := by
    rw [hline, hsize]
    decide
  have hreceived : (line_of sample_env
      (kept_families sample_networks sample_addresses [])).length ≤ sample_exchange.received := by
    rw [hline]
    decide
  have htexts : (kept_families sample_networks sample_addresses []).v4.map IPAddress.str =
      ["192.0.2.7".toList] := by decide +kernel
  have htexts6 : (kept_families sample_networks sample_addresses []).v6.map IPAddress.str = [] := by
    decide +kernel
  have happlied : PfHelper.replace sample_env.sha256.hexdigest sample_surroundings.outcomes
      sample_surroundings.helper_file (request_of (kept_families sample_networks sample_addresses []))
      sample_world.pf = (.ok ⟨1, 0, sample_sha256.hexdigest "192.0.2.7".toList⟩,
        (PfHelper.replace sample_env.sha256.hexdigest sample_surroundings.outcomes
          sample_surroundings.helper_file (request_of (kept_families sample_networks sample_addresses []))
          sample_world.pf).2) := Prod.ext hreplace rfl
  have hwhole := @replace_whole sample_env sample_surroundings.outcomes sample_surroundings.helper_file _
    sample_requestable hfits sample_exchange [] _ hreceived rfl hreturned le_rfl _ _ _ happlied
  rw [htexts, htexts6] at hwhole
  exact ⟨_, _, hwhole⟩

/-- The addresses of the sample, desired and requested. -/
def sample_desired_texts : List Text × List Text := (["192.0.2.1".toList, "192.0.2.7".toList], [])

/-- The service starts, two claims are stored, and an enforcement is attempted. -/
def sample_attempted : Stage PF :=
  ({ db := sample_db, helper := sample_world.pf } : Stage PF).attempt sample_env sample_desired_texts 1

/-- And it ends. -/
def sample_finished : Stage PF :=
  sample_attempted.finish sample_env sample_surroundings.server_file
    (HelperClient.replace sample_env sample_surroundings.outcomes sample_surroundings.helper_file
      sample_surroundings.exchanges) 1 sample_desired_texts

/-- After the attempt and its end the columns describe a success, and the digests differ because
one of the addresses is whitelisted; and with a whitelist file that cannot be parsed the helper would
not have been asked. -/
theorem enforcement_state_describes_sample :
    Reached sample_env sample_finished ∧
    (∃ response, sample_finished.ended = [.confirmed response 1]) ∧
    Describes sample_finished.ended sample_finished.db.enforcement_state ∧
    sample_finished.db.enforcement_state.desired_digest ≠
      sample_finished.db.enforcement_state.applied_digest ∧
    (sample_attempted.finish sample_env (.ok "localhost\n".toList)
      (HelperClient.replace sample_env sample_surroundings.outcomes sample_surroundings.helper_file
        sample_surroundings.exchanges) 1 sample_desired_texts).helper = sample_world.pf := by
  have hvalid : parse_whitelist "# trusted\n192.0.2.0/30\n".toList = .ok sample_networks := by
    decide +kernel
  have hreload : reload sample_surroundings.server_file = .ok sample_networks := by decide +kernel
  have hselect : effective_ips sample_db 1 = some sample_desired_texts := by decide +kernel
  have hv4 : (NetworkIndex.of_networks sample_networks).exclude sample_desired_texts.1 =
      some ["192.0.2.7".toList] := by decide +kernel
  have hsha : desired_digest sample_env sample_desired_texts ≠
      desired_digest sample_env (["192.0.2.7".toList], []) := by decide +kernel
  have hnone : (NetworkIndex.of_networks sample_networks).exclude sample_desired_texts.2 = some [] := by
    decide +kernel
  have hinvalid : (reload (.ok "localhost\n".toList)).isOk = false := by decide +kernel
  have hfile : sample_surroundings.server_file = .ok "# trusted\n192.0.2.0/30\n".toList := rfl
  have hhelper_file : sample_surroundings.helper_file = .ok "# trusted\n192.0.2.0/30\n".toList := rfl
  obtain ⟨response, pf', hhelper⟩ := sample_replaced
  obtain ⟨hcolumns, hunasked, hdigests⟩ := enforcement_state_describes sample_env Store.sample_env
  have hfinished : sample_finished = sample_attempted.finish sample_env
      (.ok "# trusted\n192.0.2.0/30\n".toList) (HelperClient.replace sample_env
        sample_surroundings.outcomes (.ok "# trusted\n192.0.2.0/30\n".toList)
        sample_surroundings.exchanges) 1 sample_desired_texts := by
    rw [sample_finished, hfile, hhelper_file]
  have hended : sample_finished.ended = sample_attempted.ended ++ [.confirmed response 1] :=
    @finish_confirmed PF sample_env sample_attempted _
      (HelperClient.replace sample_env sample_surroundings.outcomes sample_surroundings.helper_file
        sample_surroundings.exchanges) 1 sample_desired_texts _ _ _ response pf' hreload hv4 hnone hhelper
  -- the run: the claims are stored, the enforcement is attempted, and it ends
  have hstored : Step sample_env { db := DB.initial, helper := sample_world.pf }
      { db := sample_db, helper := sample_world.pf } := Step.store sample_db (by rfl)
  have hreached : Reached sample_env sample_finished :=
    ⟨sample_world.pf, ((Relation.ReflTransGen.single hstored).tail (Step.attempt 1 rfl hselect)).tail
      (Step.finish sample_surroundings.server_file _ 1 rfl)⟩
  have hiff := hdigests sample_db 1 sample_desired_texts (["192.0.2.7".toList], []) _ sample_networks
    sample_attempted sample_surroundings.outcomes sample_surroundings.exchanges 1 response sample_served
    hselect hvalid hv4 hnone (fun heq => absurd heq hsha) (hfinished ▸ hended)
  rw [← hfinished] at hiff
  cases he : reload (.ok "localhost\n".toList) with
  | ok networks =>
    rw [he] at hinvalid
    cases hinvalid
  | error e =>
    refine ⟨hreached, ⟨response, hended⟩, hcolumns PF _ hreached, hiff.not.mpr ?_,
      (hunasked PF sample_attempted _ e _ 1 sample_desired_texts he).1⟩
    intro huncovered
    refine huncovered (.v4 3221225985) ⟨⟨"a".toList, "sshd".toList,
      "4c9184f3-7cf4-4f9d-8f4e-6b9a3b0d5d01".toList, "192.0.2.1".toList, 1, none, 0⟩, ?_, rfl,
      fun t ht => (by cases ht), ?_⟩ ?_
    · exact (show _ ∈ sample_db.claims.rows by decide +kernel)
    · decide +kernel
    · exact ⟨_, List.mem_singleton.mpr rfl, by decide +kernel⟩

end F2bguard.Enforcer
