/-
One call of `Enforcer.enforce`, step by step.

The call that holds the lock shares the store and the connections to the helper with everybody
else: between two of its steps the store may change, and a request it gave up on may still be
carried out. `Advance` is what the call does in one step, with the data it has by then, and
`Shared` keeps the states the store has gone through, so that one can say which of them a request
was computed from. The states, the whitelists that were read and the requests only grow
(`Advance.grows`), and what a call knows stays right (`Advance.sound`).
-/
import F2bguard.HelperSteps
import F2bguard.EnforcementState
import F2bguard.Fifo

set_option autoImplicit false

namespace F2bguard.EnforcerSteps

open F2bguard.PyText F2bguard.PyJson F2bguard.Ipaddress F2bguard.Networks F2bguard.Whitelist
open F2bguard.PfHelper F2bguard.HelperClient F2bguard.HelperSteps F2bguard.Enforcer F2bguard.Fifo
open F2bguard.Store (DB Served effective_ips effective_ips_spec record_enforcement_attempt
  record_enforcement_success record_enforcement_failure)

/-! ## A request

A request remembers what it was computed from: the state of the store, by its number, and the
whitelist the server had read. -/

/-- What was selected from the store, in its state with a number. -/
structure Selection where
  version : ℕ
  boundary : ℚ
  desired : List Text × List Text

/-- The request for a selection, with the whitelist the server read. -/
structure Sending extends Selection where
  networks : List IPNetwork
  request : Text

/-- The body of the `try` statement of `enforce`, up to the first attempt. -/
def prepare (env : HelperClient.Env) (file : Except Failed Text) (desired : List Text × List Text) :
    Except Failed (List IPNetwork × Text) :=
  match reload file with
  | .error e => .error e
  | .ok networks =>
      let index := NetworkIndex.of_networks networks
      match index.exclude desired.1, index.exclude desired.2 with
      | some v4, some v6 =>
          let request := encode_request env v4 v6
          if MAX_HELPER_MESSAGE < request.length then
            .error (.enforcement_error ⟨"helper request exceeds size limit".toList⟩)
          else .ok (networks, request)
      | _, _ => .error .other

/-- The rest of it are the attempts. -/
theorem replace_desired_eq_prepare (env : HelperClient.Env) (s : Surroundings)
    (desired : List Text × List Text) (pf : PF) : replace_desired env s desired.1 desired.2 pf =
      match prepare env s.server_file desired with
      | .error e => (.error e, pf)
      | .ok (networks, request) =>
          ((try_exchanges env s.outcomes s.helper_file s.exchanges.length request s.exchanges
              "helper unavailable".toList pf).1.map (fun r => (NetworkIndex.of_networks networks, r)),
            (try_exchanges env s.outcomes s.helper_file s.exchanges.length request s.exchanges
              "helper unavailable".toList pf).2) := by
  unfold replace_desired prepare HelperClient.replace
  cases reload s.server_file with
  | error e => rfl
  | ok networks =>
    dsimp only
    cases (NetworkIndex.of_networks networks).exclude desired.1 with
    | none => rfl
    | some v4 =>
      cases (NetworkIndex.of_networks networks).exclude desired.2 with
      | none => rfl
      | some v6 =>
        dsimp only
        split <;> rfl

/-! ## What the threads share

States of the store are numbered by the transactions that were committed. The numbers are nothing
the program knows; they are how the statements below speak about older and newer. -/

/-- The store with the states it has had before; the index of the last success; the whitelists
anybody has read; and the connections to the helper, in the order they were made. -/
structure Shared where
  past : List DB
  db : DB
  last_index : Option NetworkIndex
  whitelists : List (List IPNetwork)
  line : Line Sending (Except Raised Applied)

namespace Shared

/-- All states of the store, oldest first. -/
def history (sh : Shared) : List DB := sh.past ++ [sh.db]

/-- The number of the present state. -/
def version (sh : Shared) : ℕ := sh.past.length

/-- A transaction is committed. -/
def commit (sh : Shared) (db : DB) : Shared := { sh with past := sh.past ++ [sh.db], db }

@[simp] theorem history_commit (sh : Shared) (db : DB) :
    (sh.commit db).history = sh.history ++ [db] := rfl

@[simp] theorem line_commit (sh : Shared) (db : DB) : (sh.commit db).line = sh.line := rfl

@[simp] theorem whitelists_commit (sh : Shared) (db : DB) :
    (sh.commit db).whitelists = sh.whitelists := rfl

theorem length_history (sh : Shared) : sh.history.length = sh.version + 1 := by
  rw [history, List.length_append, List.length_singleton, version]

theorem history_version (sh : Shared) : sh.history[sh.version]? = some sh.db := by
  rw [history, version, List.getElem?_concat_length]

/-- What holds of the states so far and of the one that is committed. -/
theorem forall_mem_commit {P : DB → Prop} {sh : Shared} (h : ∀ db ∈ sh.history, P db) {db : DB}
    (hdb : P db) : ∀ db' ∈ (sh.commit db).history, P db' := by
  rw [history_commit, List.forall_mem_append, List.forall_mem_singleton]
  exact ⟨h, hdb⟩

theorem le_version {sh : Shared} {k : ℕ} {db : DB} (h : sh.history[k]? = some db) :
    k ≤ sh.version := by
  obtain ⟨hlt, -⟩ := List.getElem?_eq_some_iff.mp h
  rw [length_history] at hlt
  omega

end Shared

/-- The states and the whitelists of one are those of the other, and perhaps more. -/
structure Grows (sh sh' : Shared) : Prop where
  history : sh.history <+: sh'.history
  whitelists : ∀ networks ∈ sh.whitelists, networks ∈ sh'.whitelists

section Grows

variable {sh sh' : Shared}

theorem Grows.of_eq (hhistory : sh'.history = sh.history) (hwhitelists : sh'.whitelists = sh.whitelists) :
    Grows sh sh' := by
  refine ⟨?_, fun networks h => ?_⟩
  · rw [hhistory]
  · rwa [hwhitelists]

theorem Grows.commit (sh : Shared) (db : DB) : Grows sh (sh.commit db) :=
  ⟨List.prefix_append _ _, fun _ h => h⟩

theorem Grows.getElem? (h : Grows sh sh') {k : ℕ} {db : DB} (hget : sh.history[k]? = some db) :
    sh'.history[k]? = some db := by
  obtain ⟨hlt, -⟩ := List.getElem?_eq_some_iff.mp hget
  obtain ⟨rest, hrest⟩ := h.history
  rw [← hrest, List.getElem?_append_left hlt]
  exact hget

theorem Grows.version_le (h : Grows sh sh') : sh.version ≤ sh'.version :=
  Shared.le_version (h.getElem? sh.history_version)

end Grows

/-! ## Sets of addresses computed from the store

`Since` is what will be said of a table: its addresses come from a state that is new enough. It is
closed under taking out whitelisted addresses, which is what a rollback needs. -/

/-- The addresses are those that were selected from a state of the store that is not older than
the one with a number, without what is on the whitelists that the server and the helper read for
them, and, after a rollback, without what is on those the helper read then. -/
def Since (sh : Shared) (p : ℕ) : Claim := fun version addresses =>
  ∃ (k : ℕ) (db : DB) (boundary : ℚ) (desired : Families (List IPAddress))
    (server helper : List IPNetwork) (rollbacks : List (List IPNetwork)),
    p ≤ k ∧ sh.history[k]? = some db ∧
    effective_ips db boundary =
      some (desired.v4.map IPAddress.str, desired.v6.map IPAddress.str) ∧
    (∀ networks ∈ server :: helper :: rollbacks, networks ∈ sh.whitelists) ∧
    ∀ a, a ∈ addresses ↔ a ∈ desired.get version ∧
      ∀ networks ∈ server :: helper :: rollbacks, ¬ Covered networks a

theorem Since.mono {sh sh' : Shared} (hgrows : Grows sh sh') {p : ℕ} {version : Version}
    {addresses : Set IPAddress} (h : Since sh p version addresses) :
    Since sh' p version addresses := by
  obtain ⟨k, db, boundary, desired, server, helper, rollbacks, hk, hdb, hdesired, hread, hmem⟩ := h
  exact ⟨k, db, boundary, desired, server, helper, rollbacks, hk, hgrows.getElem? hdb, hdesired,
    fun networks h => hgrows.whitelists networks (hread networks h), hmem⟩

/-- What is computed from a state is computed from one that is not older than an earlier one. -/
theorem Since.of_le {sh : Shared} {p q : ℕ} (hle : q ≤ p) {version : Version}
    {addresses : Set IPAddress} (h : Since sh p version addresses) :
    Since sh q version addresses := by
  obtain ⟨k, db, boundary, desired, server, helper, rollbacks, hk, h⟩ := h
  exact ⟨k, db, boundary, desired, server, helper, rollbacks, hle.trans hk, h⟩

/-- A rollback takes out what is whitelisted by then. -/
theorem Since.closed {sh : Shared} {networks : List IPNetwork} (h : networks ∈ sh.whitelists) (p : ℕ) :
    Closed (Since sh p) networks := by
  rintro version S ⟨k, db, boundary, desired, server, helper, rollbacks, hk, hdb, hdesired, hread, hmem⟩
  refine ⟨k, db, boundary, desired, server, helper, rollbacks ++ [networks], hk, hdb, hdesired, ?_, ?_⟩
  · intro networks' hnetworks'
    rw [← List.cons_append, ← List.cons_append, List.mem_append, List.mem_singleton] at hnetworks'
    rcases hnetworks' with hnetworks' | rfl
    · exact hread networks' hnetworks'
    · exact h
  · intro a
    rw [← List.cons_append, ← List.cons_append, List.forall_mem_append, ← and_assoc, ← hmem,
      List.forall_mem_singleton]
    rfl

/-- The request is that for the selection, and fits. -/
structure Computed (env : HelperClient.Env) (sh : Shared) (sending : Sending) : Prop where
  desired : ∃ db v4 v6, sh.history[sending.version]? = some db ∧
    effective_ips db sending.boundary = some (v4.map IPAddress.str, v6.map IPAddress.str) ∧
    Requestable (kept_families sending.networks v4 v6) ∧
    sending.request = line_of env (kept_families sending.networks v4 v6)
  read : sending.networks ∈ sh.whitelists
  fits : sending.request.length ≤ MAX_HELPER_MESSAGE

theorem Computed.mono {env : HelperClient.Env} {sh sh' : Shared} {sending : Sending}
    (hgrows : Grows sh sh') (h : Computed env sh sending) : Computed env sh' sending := by
  obtain ⟨⟨db, v4, v6, hdb, hdesired⟩, hread, hfits⟩ := h
  exact ⟨⟨db, v4, v6, hgrows.getElem? hdb, hdesired⟩, hgrows.whitelists _ hread, hfits⟩

/-- What the helper sets for a request. -/
theorem asked_of_selected {sh : Shared} {k : ℕ} {db : DB} {boundary : ℚ} {v4 v6 : List IPAddress}
    {server helper : List IPNetwork} (hdb : sh.history[k]? = some db)
    (hdesired : effective_ips db boundary = some (v4.map IPAddress.str, v6.map IPAddress.str))
    (hserver : server ∈ sh.whitelists) (hhelper : helper ∈ sh.whitelists) :
    Asked (Since sh k) helper (kept_families server v4 v6) := by
  intro version
  refine ⟨k, db, boundary, ⟨v4, v6⟩, server, helper, [], le_rfl, hdb, hdesired, ?_, ?_⟩
  · intro networks hnetworks
    simp only [List.mem_cons, List.not_mem_nil, or_false] at hnetworks
    rcases hnetworks with rfl | rfl
    · exact hserver
    · exact hhelper
  · intro a
    have hkept : (kept_families server v4 v6).get version =
        kept server ((Families.mk v4 v6).get version) := by
      cases version <;> rfl
    change a ∈ (wanted helper (kept_families server v4 v6)).get version ↔ _
    rw [wanted, Families.get_map, mem_effective, hkept, mem_kept, and_assoc]
    simp only [List.mem_cons, List.not_mem_nil, or_false, forall_eq_or_imp, forall_eq]

theorem prepare_ok {store : Store.Env} {env : HelperClient.Env} {db : DB} {boundary : ℚ}
    {file : Except Failed Text} {desired : List Text × List Text} {networks : List IPNetwork}
    {request : Text} (hserved : Served store db) (hselect : effective_ips db boundary = some desired)
    (h : prepare env file desired = .ok (networks, request)) :
    ∃ v4 v6, effective_ips db boundary = some (v4.map IPAddress.str, v6.map IPAddress.str) ∧
      Requestable (kept_families networks v4 v6) ∧
      request = line_of env (kept_families networks v4 v6) ∧
      request.length ≤ MAX_HELPER_MESSAGE := by
  obtain ⟨v4, v6, heffective, h4, h6, hcount⟩ := effective_ips_spec hserved boundary
  rw [hselect] at heffective
  cases heffective
  refine ⟨v4, v6, hselect, requestable_kept networks h4 h6 hcount, ?_⟩
  unfold prepare at h
  cases hreload : reload file with
  | error e =>
    rw [hreload] at h
    cases h
  | ok networks' =>
    rw [hreload] at h
    dsimp only at h
    rw [exclude_texts, exclude_texts] at h
    dsimp only at h
    split at h
    · cases h
    · rename_i hfits
      cases h
      exact ⟨rfl, not_lt.mp hfits⟩

/-! ## The call that holds the lock

`enforce` with its loop over the attempts, one step at a time. A call of the store is a step, and
so are connecting, giving up, and reading an answer. -/

/-- Where the call is, with what it has found out. A call that waits for an answer knows the
number of its connection, and reads the answer of that one only. -/
inductive Point
  | entered
  | selected (selection : Selection)
  | attempted (selection : Selection)
  /-- between two attempts; `left` more are allowed -/
  | retrying (sending : Sending) (left : ℕ) (last_error : Text)
  /-- the connection with a number was made, and its answer is awaited -/
  | connected (sending : Sending) (left : ℕ) (number : ℕ)
  | confirmed (sending : Sending) (response : Response)
  | failing (selection : Selection) (e : Failed)
  | returning (sending : Sending) (count : ℕ)
  | raising (e : Failed)

def Point.selection : Point → Option Selection
  | .entered => none
  | .selected selection => some selection
  | .attempted selection => some selection
  | .retrying sending _ _ => some sending.toSelection
  | .connected sending _ _ => some sending.toSelection
  | .confirmed sending _ => some sending.toSelection
  | .failing selection _ => some selection
  | .returning sending _ => some sending.toSelection
  | .raising _ => none

/-- `HelperClient.retries` -/
def retries : ℕ := 3

/-- The error after the last attempt, with the error of that attempt in it. -/
def too_many (last_error : Text) : Failed :=
  .enforcement_error ⟨"PF helper failed after ".toList ++ to_dec retries ++ " attempts: ".toList
    ++ last_error⟩

/-- One step of the call. A call of the store may raise `sqlite3.Error` instead. -/
inductive Advance (env : HelperClient.Env) (sh : Shared) : Point → Shared → Point → Prop
  | select {desired : List Text × List Text} (boundary : ℚ)
      (h : effective_ips sh.db boundary = some desired) :
      Advance env sh .entered sh (.selected ⟨sh.version, boundary, desired⟩)
  | select_fails {boundary : ℚ} {e : Failed}
      (h : e = .database ∨ (e = .other ∧ effective_ips sh.db boundary = none)) :
      Advance env sh .entered sh (.raising e)
  | attempt {selection : Selection} (time : ℚ) :
      Advance env sh (.selected selection)
        (sh.commit (record_enforcement_attempt sh.db (desired_digest env selection.desired) time))
        (.attempted selection)
  | attempt_fails {selection : Selection} :
      Advance env sh (.selected selection) sh (.raising .database)
  | prepare {selection : Selection} {networks : List IPNetwork} {request : Text}
      (file : Except Failed Text) (h : prepare env file selection.desired = .ok (networks, request)) :
      Advance env sh (.attempted selection) { sh with whitelists := sh.whitelists ++ [networks] }
        (.retrying ⟨selection, networks, request⟩ retries "helper unavailable".toList)
  | prepare_fails {selection : Selection} {e : Failed} (file : Except Failed Text)
      (h : prepare env file selection.desired = .error e) :
      Advance env sh (.attempted selection) sh (.failing selection e)
  -- the request is on its way: from here on the helper may act on it at any time
  | connect {sending : Sending} {left : ℕ} {last_error : Text} :
      Advance env sh (.retrying sending (left + 1) last_error)
        { sh with line := sh.line.submit sending }
        (.connected sending left sh.line.requests.length)
  | unreachable {sending : Sending} {left : ℕ} {last_error : Text} :
      Advance env sh (.retrying sending (left + 1) last_error) sh
        (.retrying sending left "PF helper unavailable".toList)
  | give_up {sending : Sending} {last_error : Text} :
      Advance env sh (.retrying sending 0 last_error) sh
        (.failing sending.toSelection (too_many last_error))
  /-- the answer is not awaited any longer; the request stays where it is -/
  | timeout {sending : Sending} {left number : ℕ} :
      Advance env sh (.connected sending left number) sh
        (.retrying sending left "PF helper unavailable".toList)
  | confirm {sending : Sending} {left number returned : ℕ} {result : Except Raised Applied}
      {response : Response} (hanswer : sh.line.answers[number]? = some result)
      (h : answer_read env result returned = .ok response) :
      Advance env sh (.connected sending left number) sh (.confirmed sending response)
  -- a malformed or refused answer is tried again, anything else ends the call
  | reject {sending : Sending} {left number returned : ℕ} {result : Except Raised Applied}
      {message : Text} (hanswer : sh.line.answers[number]? = some result)
      (h : answer_read env result returned = .error (.caught message)) :
      Advance env sh (.connected sending left number) sh (.retrying sending left message)
  | escape {sending : Sending} {left number returned : ℕ} {result : Except Raised Applied}
      (hanswer : sh.line.answers[number]? = some result)
      (h : answer_read env result returned = .error .escaped) :
      Advance env sh (.connected sending left number) sh (.failing sending.toSelection .other)
  | success {sending : Sending} {response : Response} (time : ℚ) :
      Advance env sh (.confirmed sending response)
        { sh.commit (record_enforcement_success sh.db (desired_digest env sending.desired)
            response.digest response.applied_ipv4 response.applied_ipv6 time) with
          last_index := some (NetworkIndex.of_networks sending.networks) }
        (.returning sending (response.applied_ipv4 + response.applied_ipv6))
  | success_fails {sending : Sending} {response : Response} :
      Advance env sh (.confirmed sending response) sh (.raising .database)
  | failure {selection : Selection} {e : Failed} (time : ℚ) :
      Advance env sh (.failing selection e)
        (sh.commit (record_enforcement_failure sh.db (desired_digest env selection.desired)
          (failure_message e) time))
        (.raising (.enforcement_error ⟨failure_message e⟩))
  | failure_fails {selection : Selection} {e : Failed} :
      Advance env sh (.failing selection e) sh (.raising .database)

/-- Where the call is after an attempt. -/
def point_after (sending : Sending) (left : ℕ) : Except AttemptError Response → Point
  | .ok response => .confirmed sending response
  | .error .os_error => .retrying sending left "PF helper unavailable".toList
  | .error (.caught message) => .retrying sending left message
  | .error .escaped => .failing sending.toSelection .other

/-- Where the call is when no attempt is left or needed. -/
def point_tried (sending : Sending) : Except Failed Response → Point
  | .ok response => .confirmed sending response
  | .error e => .failing sending.toSelection e

section Advance

variable {env : HelperClient.Env} {sh sh' : Shared} {point point' : Point}

/-- Reading an answer, or not awaiting it, is a step. -/
theorem Advance.of_read {sending : Sending} {left number : ℕ} {result : Except Raised Applied}
    (hanswer : sh.line.answers[number]? = some result) (returned : Option ℕ) :
    Advance env sh (.connected sending left number) sh
      (point_after sending left (exchange_read env result returned)) := by
  cases returned with
  | none => exact Advance.timeout
  | some returned =>
    rw [exchange_read]
    cases hread : answer_read env result returned with
    | ok response => exact Advance.confirm hanswer hread
    | error e =>
      cases e with
      | os_error => exact Advance.timeout
      | caught message => exact Advance.reject hanswer hread
      | escaped => exact Advance.escape hanswer hread

theorem Advance.grows (h : Advance env sh point sh' point') : Grows sh sh' := by
  cases h with
  | attempt time => exact Grows.commit _ _
  | success time => exact ⟨List.prefix_append _ _, fun _ h => h⟩
  | failure time => exact Grows.commit _ _
  | prepare file hprepare =>
    exact ⟨List.prefix_rfl, fun networks hnetworks => List.mem_append_left _ hnetworks⟩
  | _ => exact Grows.of_eq rfl rfl

/-- The calls of the store are those requests and enforcements make. -/
theorem Advance.served {store : Store.Env} (hserved : ∀ db ∈ sh.history, Served store db)
    (h : Advance env sh point sh' point') : ∀ db ∈ sh'.history, Served store db := by
  have hdb : Served store sh.db := hserved sh.db (List.mem_of_getElem? sh.history_version)
  cases h with
  | @attempt selection time =>
    apply Shared.forall_mem_commit hserved
    exact hdb.perform (a := .attempt (desired_digest env selection.desired) time) trivial
  | @success sending response time =>
    apply Shared.forall_mem_commit hserved
    exact hdb.perform (a := .success (desired_digest env sending.desired) response.digest
      response.applied_ipv4 response.applied_ipv6 time) trivial
  | @failure selection e time =>
    apply Shared.forall_mem_commit hserved
    exact hdb.perform (a := .failure (desired_digest env selection.desired) (failure_message e) time)
      trivial
  | _ => exact hserved

/-- A request that is made is the one that was prepared. -/
theorem Advance.line (h : Advance env sh point sh' point') :
    sh'.line = sh.line ∨ ∃ sending left last_error, point = .retrying sending left last_error ∧
      sh'.line = sh.line.submit sending := by
  cases h with
  | connect => exact Or.inr ⟨_, _, _, rfl, rfl⟩
  | _ => exact Or.inl rfl

/-- A selection is kept until the end, and a new one is from the present state. -/
theorem Advance.selection (h : Advance env sh point sh' point') {selection : Selection}
    (hselection : point'.selection = some selection) :
    point.selection = some selection ∨ selection.version = sh.version := by
  cases h with
  | select boundary hselect =>
    cases hselection
    exact Or.inr rfl
  | select_fails hfails => cases hselection
  | attempt_fails => cases hselection
  | success_fails => cases hselection
  | failure time => cases hselection
  | failure_fails => cases hselection
  | _ => exact Or.inl hselection

end Advance

/-! ## What the call knows

The knowledge of a call is about states that were and requests that were made. Both stay as they
are, so no other thread can make it wrong. -/

/-- What was selected was in the store, and no request was computed from a later state. -/
structure Selection.Sound (sh : Shared) (selection : Selection) : Prop where
  selected : ∃ db, sh.history[selection.version]? = some db ∧
    effective_ips db selection.boundary = some selection.desired
  newest : ∀ r ∈ sh.line.requests, r.version ≤ selection.version

/-- The request was carried out, and nothing waits. -/
structure Confirmed (sh : Shared) (sending : Sending) : Prop where
  answered : ∃ i a, sh.line.Answered i sending (.ok a)
  waiting : sh.line.waiting = []

/-- What is right at each point. From the connection on no later request than its own was made,
since the lock is held; when its answer has come, nothing waits. -/
def Point.Sound (env : HelperClient.Env) (sh : Shared) : Point → Prop
  | .entered => True
  | .selected selection => selection.Sound sh
  | .attempted selection => selection.Sound sh
  | .retrying sending _ _ => sending.toSelection.Sound sh ∧ Computed env sh sending
  | .connected sending _ number => (sending.toSelection.Sound sh ∧ Computed env sh sending) ∧
      sh.line.requests[number]? = some sending ∧ number + 1 = sh.line.requests.length
  | .confirmed sending _ => Confirmed sh sending
  | .failing selection _ => selection.Sound sh
  | .returning sending _ => Confirmed sh sending
  | .raising _ => True

section Sound

variable {env : HelperClient.Env} {sh sh' : Shared}

theorem Selection.Sound.mono {selection : Selection} (hgrows : Grows sh sh')
    (hrequests : sh'.line.requests = sh.line.requests) (h : selection.Sound sh) :
    selection.Sound sh' := by
  obtain ⟨⟨db, hdb, hdesired⟩, hnewest⟩ := h
  refine ⟨⟨db, hgrows.getElem? hdb, hdesired⟩, ?_⟩
  rwa [hrequests]

/-- What anybody else does leaves right what the call knows: the others make no requests, and the
helper answers the next one. -/
theorem Point.Sound.mono {point : Point} (hgrows : Grows sh sh')
    (hline : sh'.line = sh.line ∨ ∃ result hnext, sh'.line = sh.line.answer result hnext)
    (h : point.Sound env sh) : point.Sound env sh' := by
  have hrequests : sh'.line.requests = sh.line.requests := by
    rcases hline with hline | ⟨result, hnext, hline⟩ <;> rw [hline]
    rfl
  have hconfirmed : ∀ sending, Confirmed sh sending → Confirmed sh' sending := by
    rintro sending ⟨⟨i, a, hanswered⟩, hwaiting⟩
    rcases hline with hline | ⟨result, hnext, hline⟩
    · exact ⟨⟨i, a, by rwa [hline]⟩, by rwa [hline]⟩
    · -- nothing is left to be answered
      obtain ⟨r, hr⟩ := Option.isSome_iff_exists.mp hnext
      have hmem := Line.mem_waiting_of_next hr
      rw [hwaiting] at hmem
      cases hmem
  cases point with
  | entered => exact trivial
  | selected selection => exact Selection.Sound.mono hgrows hrequests h
  | attempted selection => exact Selection.Sound.mono hgrows hrequests h
  | retrying sending left last_error =>
    exact ⟨Selection.Sound.mono hgrows hrequests h.1, h.2.mono hgrows⟩
  | connected sending left number =>
    refine ⟨⟨Selection.Sound.mono hgrows hrequests h.1.1, h.1.2.mono hgrows⟩, ?_⟩
    rw [hrequests]
    exact h.2
  | confirmed sending response => exact hconfirmed sending h
  | failing selection e => exact Selection.Sound.mono hgrows hrequests h
  | returning sending count => exact hconfirmed sending h
  | raising e => exact trivial

/-- What waits was not computed from a later state than the one the call selected from. -/
theorem Point.Sound.version_le {point : Point} {selection : Selection} {r : Sending}
    (h : point.Sound env sh) (hselection : point.selection = some selection)
    (hnext : sh.line.next = some r) : r.version ≤ selection.version := by
  have hr := Line.mem_waiting_of_next hnext
  cases point with
  | entered => cases hselection
  | selected selection' =>
    cases hselection
    exact Selection.Sound.newest h r (Line.mem_of_waiting hr)
  | attempted selection' =>
    cases hselection
    exact Selection.Sound.newest h r (Line.mem_of_waiting hr)
  | retrying sending left last_error =>
    cases hselection
    exact h.1.newest r (Line.mem_of_waiting hr)
  | connected sending left number =>
    cases hselection
    exact h.1.1.newest r (Line.mem_of_waiting hr)
  | confirmed sending response =>
    rw [h.waiting] at hr
    cases hr
  | failing selection' e =>
    cases hselection
    exact Selection.Sound.newest h r (Line.mem_of_waiting hr)
  | returning sending count =>
    rw [h.waiting] at hr
    cases hr
  | raising e => cases hselection

/-- A step of the call keeps right what it knows. -/
theorem Advance.sound {store : Store.Env} {point point' : Point}
    (hserved : ∀ db ∈ sh.history, Served store db)
    (hcomputed : ∀ r ∈ sh.line.requests, Computed env sh r)
    (hplain : ∀ e, .error e ∈ sh.line.answers → PlainText (error_message e))
    (hstep : Advance env sh point sh' point') (h : point.Sound env sh) : point'.Sound env sh' := by
  cases hstep with
  | select boundary hselect =>
    refine ⟨⟨sh.db, sh.history_version, hselect⟩, fun r hr => ?_⟩
    obtain ⟨db, -, -, hdb, -⟩ := (hcomputed r hr).desired
    exact Shared.le_version hdb
  | attempt time => exact Selection.Sound.mono (Grows.commit _ _) rfl h
  | @prepare selection networks request file hprepare =>
    obtain ⟨db, hdb, hselect⟩ := h.selected
    obtain ⟨v4, v6, heffective, hrequestable, hrequest, hfits⟩ :=
      prepare_ok (hserved db (List.mem_of_getElem? hdb)) hselect hprepare
    have hgrows : Grows sh { sh with whitelists := sh.whitelists ++ [networks] } :=
      ⟨List.prefix_rfl, fun networks' hnetworks' => List.mem_append_left _ hnetworks'⟩
    refine ⟨Selection.Sound.mono hgrows rfl h, ⟨⟨db, v4, v6, hdb, heffective, hrequestable, hrequest⟩,
      ?_, hfits⟩⟩
    exact List.mem_append_right _ (List.mem_singleton.mpr rfl)
  | @connect sending left last_error =>
    obtain ⟨⟨hselected, hnewest⟩, hsending⟩ := h
    have hgrows : Grows sh { sh with line := sh.line.submit sending } := Grows.of_eq rfl rfl
    refine ⟨⟨⟨hselected, ?_⟩, hsending.mono hgrows⟩, ?_, ?_⟩
    · intro r hr
      rw [Line.requests_submit, List.mem_append, List.mem_singleton] at hr
      rcases hr with hr | rfl
      · exact hnewest r hr
      · exact le_rfl
    · rw [Line.requests_submit, List.getElem?_concat_length]
    · rw [Line.requests_submit, List.length_append, List.length_singleton]
  | prepare_fails file hprepare => exact h
  | unreachable => exact h
  | give_up => exact h.1
  | timeout => exact h.1
  | @confirm sending left number returned result response hanswer hread =>
    -- the connection was made last, so all others were handled before
    obtain ⟨a, rfl⟩ := answer_read_ok env
      (fun e he => hplain e (by rw [← he]; exact List.mem_of_getElem? hanswer)) hread
    exact ⟨⟨number, a, h.2.1, hanswer⟩, Line.waiting_of_last ⟨h.2.1, hanswer⟩ h.2.2⟩
  | reject hanswer hread => exact h.1
  | escape hanswer hread => exact h.1.1
  | success time => exact ⟨h.answered, h.waiting⟩
  | _ => exact trivial

end Sound

end F2bguard.EnforcerSteps
