/-
Runs of the receiver's store.

A run is a sequence of calls by any clients, of prunings and of enforcement records.
The main result is `claims_are_fold`: whatever is delivered, in whatever order and
however often, the claims of a client are what its fresh requests say when they are
applied in delivery order. An old request changes nothing (`old_request_unchanged`).

The order of the actions is any order, and so is the reading of the clock: nothing in the store
compares a time with a number. A client that sends a batch twice, or late, or after a snapshot, is
covered by the same statement as one that behaves.
-/
import F2bguard.Requests

set_option autoImplicit false

namespace F2bguard.Store

open F2bguard.PyText F2bguard.Claims F2bguard.Tables F2bguard.Lifecycle

/-- Everything that is done to a store after it was created. -/
inductive Action
  | call (call : Call)
  | prune (now : ℚ)
  | attempt (desired_digest : Text) (now : ℚ)
  | success (desired_digest : Text) (applied_digest : Option Text) (ipv4 ipv6 : ℕ) (now : ℚ)
  | failure (desired_digest error : Text) (now : ℚ)

/-- What an action leaves. The answer of a call is not part of the state; where it matters, as for
what counts as fresh, it is computed again from the tables. -/
def Action.perform (env : Env) (db : DB) : Action → DB
  | .call posted => (posted.perform env db).2
  | .prune now => (prune_history env db now).2
  | .attempt digest now => record_enforcement_attempt db digest now
  | .success digest applied ipv4 ipv6 now =>
      record_enforcement_success db digest applied ipv4 ipv6 now
  | .failure digest error now => record_enforcement_failure db digest error now

/-- Actions one after the other. A call is one transaction, so no two of them interleave. -/
def run (env : Env) (db : DB) (actions : List Action) : DB :=
  actions.foldl (Action.perform env) db

@[simp] theorem run_nil (env : Env) (db : DB) : run env db [] = db := rfl

@[simp] theorem run_cons (env : Env) (db : DB) (a : Action) (actions : List Action) :
    run env db (a :: actions) = run env (a.perform env db) actions := rfl

theorem run_append (env : Env) (db : DB) (as bs : List Action) :
    run env db (as ++ bs) = run env (run env db as) bs := List.foldl_append

/-- An invariant of every action is an invariant of every run. -/
theorem run_invariant {env : Env} {P : DB → Prop} (hstep : ∀ db (a : Action), P db → P (a.perform env db))
    {db : DB} (h : P db) (actions : List Action) : P (run env db actions) := by
  induction actions generalizing db with
  | nil => exact h
  | cons a actions ih => exact ih (hstep db a h)

/-- The tables a run from the empty store leads to. -/
def Reachable (env : Env) (db : DB) : Prop := ∃ actions, run env DB.initial actions = db

/-- Surroundings for runs on fixed inputs: a hash that forgets nothing. -/
def sample_env : Env := { sha256 := fun text => text, floats := ⟨fun _ => [], fun _ => .nan⟩ }

/-! ## Fresh requests

A request is fresh when its answer says so, that is, when it carries neither of the two flags. The
fresh requests of a client are what the fold in the main result is over, and their numbers
increase along the whole run (`fresh_seqs_run`). -/

/-- Accepted, and neither a duplicate nor stale. -/
def is_fresh : Except StoreError ApplyResult → Bool
  | .ok result => result.accepted && !result.duplicate && !result.stale
  | .error _ => false

/-- The request of an action, when it is a call of `client_id` that is accepted as fresh. -/
def fresh_request (env : Env) (db : DB) (client_id : Text) : Action → Option Request
  | .call call =>
      if call.client_id = client_id ∧ is_fresh (call.perform env db).1 then some call.request
      else none
  | _ => none

/-- The requests of a client that a run accepts as fresh, in delivery order. -/
def fresh_requests (env : Env) (client_id : Text) : DB → List Action → List Request
  | _, [] => []
  | db, a :: actions =>
      (fresh_request env db client_id a).toList
        ++ fresh_requests env client_id (a.perform env db) actions

theorem fresh_requests_append (env : Env) (client_id : Text) (as bs : List Action) :
    ∀ db : DB, fresh_requests env client_id db (as ++ bs) =
      fresh_requests env client_id db as ++ fresh_requests env client_id (run env db as) bs := by
  induction as with
  | nil => intro db; rfl
  | cons a as ih =>
    intro db
    rw [List.cons_append, fresh_requests, fresh_requests, ih, List.append_assoc, run_cons]

/-- What one action does to the claims of a client. -/
theorem claim_set_perform (env : Env) (db : DB) (a : Action) (c : Text) :
    claim_set (a.perform env db) c =
      applyAll (claim_set db c) ((fresh_request env db c a).toList.flatMap Request.changes) := by
  cases a with
  | call call =>
    simp only [Action.perform, fresh_request]
    rcases hp : call.perform env db with ⟨result, db'⟩
    cases perform_outcome hp with
    | refused e => simp [is_fresh]
    | known duplicate hne hold hdb => cases duplicate <;> simp [is_fresh, hdb]
    | fresh h =>
      rw [h.claims c]
      by_cases hc : c = call.client_id
      · subst hc
        simp [is_fresh]
      · have hc' : ¬ call.client_id = c := fun h => hc h.symm
        simp [hc, hc']
  | prune now => rfl
  | attempt digest now => rfl
  | success digest applied ipv4 ipv6 now => rfl
  | failure digest error now => rfl

/-- What one action does to the stored sequence number of a client. -/
theorem last_seq_perform (env : Env) (db : DB) (a : Action) (c : Text) :
    last_seq (a.perform env db) c =
      ((fresh_request env db c a).toList.flatMap Request.seqs).getLast?.getD (last_seq db c) := by
  cases a with
  | call call =>
    simp only [Action.perform, fresh_request]
    rcases hp : call.perform env db with ⟨result, db'⟩
    cases perform_outcome hp with
    | refused e => simp [is_fresh]
    | known duplicate hne hold hdb => cases duplicate <;> simp [is_fresh, hdb]
    | fresh h =>
      rw [h.last_seq c]
      by_cases hc : c = call.client_id
      · subst hc
        have hlast : call.request.seqs.getLast? = some (call.request.seqs.getLast h.nonempty) :=
          List.getLast?_eq_some_getLast h.nonempty
        simp [is_fresh, Request.highest, hlast]
      · have hc' : ¬ call.client_id = c := fun h => hc h.symm
        simp [hc, hc']
  | prune now => rfl
  | attempt digest now => rfl
  | success digest applied ipv4 ipv6 now => rfl
  | failure digest error now => rfl

/-- The sequence numbers of a fresh request increase and lie above the stored one. -/
theorem fresh_request_seqs {env : Env} {db : DB} {a : Action} {c : Text} {request : Request}
    (h : fresh_request env db c a = some request) :
    request.seqs.Pairwise (· < ·) ∧ ∀ s ∈ request.seqs, last_seq db c < s := by
  cases a with
  | call call =>
    simp only [fresh_request] at h
    split at h
    · rename_i hcond
      obtain ⟨rfl, hfresh⟩ := hcond
      cases h
      rcases hp : call.perform env db with ⟨result, db'⟩
      rw [hp] at hfresh
      cases perform_outcome hp with
      | refused e => simp [is_fresh] at hfresh
      | known duplicate hne hold hdb => cases duplicate <;> simp [is_fresh] at hfresh
      | fresh h => exact ⟨h.increasing, h.newer⟩
    · cases h
  | prune now => cases h
  | attempt digest now => cases h
  | success digest applied ipv4 ipv6 now => cases h
  | failure digest error now => cases h

/-- The sequence numbers of all fresh requests of a client so far. -/
def fresh_seqs (env : Env) (client_id : Text) (db : DB) (actions : List Action) : List ℕ :=
  (fresh_requests env client_id db actions).flatMap Request.seqs

theorem claim_set_run (env : Env) (c : Text) (actions : List Action) :
    ∀ db : DB, claim_set (run env db actions) c =
      applyAll (claim_set db c)
        ((fresh_requests env c db actions).flatMap Request.changes) := by
  induction actions with
  | nil => intro db; rfl
  | cons a actions ih =>
    intro db
    rw [run_cons, ih, claim_set_perform, fresh_requests, List.flatMap_append, applyAll_append]

/-- `last_seq` is the last fresh number, and they increase from the stored one on. The
induction is on the actions from the end, since the next fresh request is compared with
what the run so far has stored. -/
theorem fresh_seqs_run (env : Env) (c : Text) (db : DB) (actions : List Action) :
    last_seq (run env db actions) c =
        (fresh_seqs env c db actions).getLast?.getD (last_seq db c) ∧
      (fresh_seqs env c db actions).Pairwise (· < ·) ∧
      ∀ s ∈ fresh_seqs env c db actions, last_seq db c < s := by
  induction actions using List.reverseRecOn with
  | nil => exact ⟨rfl, List.Pairwise.nil, by simp [fresh_seqs, fresh_requests]⟩
  | append_singleton actions a ih =>
    obtain ⟨hlast, hinc, hnew⟩ := ih
    have happend : fresh_seqs env c db (actions ++ [a]) = fresh_seqs env c db actions
        ++ (fresh_request env (run env db actions) c a).toList.flatMap Request.seqs := by
      simp [fresh_seqs, fresh_requests_append, fresh_requests]
    have hstep := last_seq_perform env (run env db actions) a c
    rw [run_append, run_cons, run_nil, hstep, happend]
    cases hfresh : fresh_request env (run env db actions) c a with
    | none => simpa using ⟨hlast, hinc, hnew⟩
    | some request =>
      obtain ⟨hreq, habove⟩ := fresh_request_seqs hfresh
      have hle : last_seq db c ≤ last_seq (run env db actions) c := by
        rw [hlast]
        cases hl : (fresh_seqs env c db actions).getLast? with
        | none => exact le_rfl
        | some s => exact (hnew s (List.mem_of_getLast? hl)).le
      have hmax : ∀ s ∈ fresh_seqs env c db actions, s ≤ last_seq (run env db actions) c := by
        intro s hs
        have hne : fresh_seqs env c db actions ≠ [] := List.ne_nil_of_mem hs
        have hget := List.Pairwise.rel_getLast (hinc.imp (fun h => h.le)) hs
        rw [hlast, List.getLast?_eq_some_getLast hne]
        exact hget
      refine ⟨?_, ?_, ?_⟩
      · simp only [Option.toList_some, List.flatMap_cons, List.flatMap_nil, List.append_nil]
        rw [List.getLast?_append, hlast]
        cases request.seqs.getLast? <;> simp
      · simp only [Option.toList_some, List.flatMap_cons, List.flatMap_nil, List.append_nil]
        rw [List.pairwise_append]
        exact ⟨hinc, hreq, fun s hs s' hs' => (hmax s hs).trans_lt (habove s' hs')⟩
      · simp only [Option.toList_some, List.flatMap_cons, List.flatMap_nil, List.append_nil]
        intro s hs
        rcases List.mem_append.mp hs with h | h
        · exact hnew s h
        · exact hle.trans_lt (habove s h)

/-- A request none of whose numbers is above the stored one leaves the claims, the
sequence numbers and the histories as they are. -/
theorem old_request_unchanged (env : Env) (db : DB) (call : Call)
    (hold : call.request.highest ≤ last_seq db call.client_id) :
    (call.perform env db).2.claims = db.claims ∧
      (call.perform env db).2.events = db.events ∧
      (call.perform env db).2.snapshots = db.snapshots ∧
      ∀ c, last_seq (call.perform env db).2 c = last_seq db c := by
  rcases hp : call.perform env db with ⟨result, db'⟩
  cases perform_outcome hp with
  | refused e => exact ⟨rfl, rfl, rfl, fun _ => rfl⟩
  | known duplicate hne hold hdb => simp [hdb]
  | fresh h =>
    have hlast := List.getLast_mem h.nonempty
    have hhighest : call.request.highest = call.request.seqs.getLast h.nonempty := by
      rw [Request.highest, List.getLast?_eq_some_getLast h.nonempty]
      rfl
    have := h.newer _ hlast
    omega

/-- **The claims are a fold.** After any sequence of calls, prunings and records from the empty
store, the claims of each client are the fold of its fresh requests in delivery order, whose
sequence numbers strictly increase up to `last_seq`; and a request that is not above `last_seq`
changes neither claims nor sequence numbers nor histories. So a repetition does no harm however
late it comes, and what was delivered in the wrong order is not applied at all. -/
theorem claims_are_fold (env : Env) (actions : List Action) (c : Text) :
    let db := run env DB.initial actions
    let requests := fresh_requests env c DB.initial actions
    claim_set db c = applyAll (fun _ => none) (requests.flatMap Request.changes) ∧
      (requests.flatMap Request.seqs).Pairwise (· < ·) ∧
      last_seq db c = (requests.flatMap Request.seqs).getLast?.getD 0 ∧
      ∀ call : Call, call.client_id = c → call.request.highest ≤ last_seq db c →
        (call.perform env db).2.claims = db.claims ∧
          (call.perform env db).2.events = db.events ∧
          (call.perform env db).2.snapshots = db.snapshots ∧
          ∀ c', last_seq (call.perform env db).2 c' = last_seq db c' := by
  intro db requests
  obtain ⟨hlast, hinc, -⟩ := fresh_seqs_run env c DB.initial actions
  refine ⟨claim_set_run env c actions DB.initial, hinc, hlast, ?_⟩
  rintro call rfl hold
  exact old_request_unchanged env db call hold

end F2bguard.Store
