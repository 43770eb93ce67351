/-
The server's threads and the helper together.

Any number of threads write to the store, enforce and reply; the one that enforces holds the lock.
The helper takes one connection after the other, in the order they were made, and between any two
calls of `pfctl` anything else may happen. A request whose answer came too late is still carried
out. Yet when an enforcement returns, every request made so far has been handled; and from then
on whatever reaches the tables was computed from a state of the store at least as recent as the one
this enforcement selected from (`Settled`), because requests wait in the order of the states they
were computed from and a rollback restores what such a request has set.
-/
import F2bguard.EnforcerSteps
import F2bguard.Handler
import F2bguard.Runs

set_option autoImplicit false

namespace F2bguard.Interleaving

open F2bguard.PyText F2bguard.PyJson F2bguard.Ipaddress F2bguard.Networks F2bguard.Whitelist
open F2bguard.PfHelper F2bguard.HelperClient F2bguard.HelperSteps F2bguard.Enforcer
open F2bguard.EnforcerSteps F2bguard.Handler F2bguard.Fifo F2bguard.Runs
open F2bguard.Store (DB Served ApplyResult prune_history)

/-! ## The system

Threads of the server and one helper. What two steps of a thread have in between is anything:
other threads write, the helper works, requests that nobody waits for are carried out. -/

/-- A write that is in the store: whose it is, what `_finish_write` gets, and the number of the
state of the store it led to. -/
structure Written where
  client : RegisteredClient
  result : ApplyResult
  position : ℕ

/-- Where a thread is. A thread that has stored its write waits for the lock; once its enforcement
has ended it has only the reply left. -/
inductive Phase
  | idle
  | accepted (written : Written)
  | enforcing
  | ended (written : Written) (outcome : Except Failed ℕ)

/-- The thread that holds the lock, and for which write it enforces, if any. -/
structure Holder (τ : Type) where
  thread : τ
  written : Option Written
  point : Point

/-- What the threads share, the tables, the request the helper works on, and the threads. -/
structure State (τ : Type) extends Shared where
  pf : PF
  work : Option Work
  holder : Option (Holder τ)
  threads : τ → Phase

/-- What happens in a step. -/
inductive Label (τ : Type)
  /-- `enforce` returns -/
  | returned (thread : τ) (count : ℕ)
  /-- the reply to a write, `none` when an exception escapes -/
  | replied (thread : τ) (written : Written) (response : Option Server.Response)
  | silent

/-- The server and the helper have just been started. The tables may hold anything. -/
def State.initial {τ : Type} (db : DB) (pf : PF) : State τ where
  past := []
  db := db
  last_index := none
  whitelists := []
  line := Line.empty
  pf := pf
  work := none
  holder := none
  threads := fun _ => .idle

/-- Where a thread is when its call of `enforce` is over. -/
def phase_after (written : Option Written) (outcome : Except Failed ℕ) : Phase :=
  match written with
  | none => .idle
  | some w => .ended w outcome

/-- The call of `client_effective_count` in `_finish_write`, after an enforcement that ended. -/
def count_after (s : Surroundings) (w : World) (client_id : Text) :
    Except Failed ℕ → Except Failed ℕ
  | .error e => .error e
  | .ok _ => client_effective_count s w client_id

theorem enforce_and_count_eq (env : HelperClient.Env) (s : Surroundings) (client_id : Text)
    (w : World) : enforce_and_count env s client_id w =
      (count_after s (enforce env s w).2 client_id (enforce env s w).1, (enforce env s w).2) := by
  unfold enforce_and_count
  rcases enforce env s w with ⟨result, w'⟩
  cases result <;> rfl

section Step

variable {τ : Type} [DecidableEq τ]

/-- One step of a thread or of the helper. A POST that is refused changes nothing and is left out. -/
inductive Step (service : Service) (outcomes : ℕ → Outcome) (s : State τ) :
    Label τ → State τ → Prop
  /-- a request is validated and stored -/
  | write {t : τ} {client : RegisteredClient} {path : Claims.Path} {raw : Json} {moment : Moment}
      {result : ApplyResult} {db : DB} (hidle : s.threads t = .idle)
      (hwrite : Handler.write service.server client.toClientConfig s.db path raw moment =
        (.ok result, db)) :
      Step service outcomes s .silent { s with
        toShared := s.commit db
        threads := Function.update s.threads t (.accepted ⟨client, result, s.version + 1⟩) }
  /-- `prune_history` of the periodic thread -/
  | prune {t : τ} (now : ℚ) (hidle : s.threads t = .idle) :
      Step service outcomes s .silent { s with
        toShared := s.commit (prune_history service.server.store s.db now).2 }
  /-- a handler gets the lock -/
  | enter {t : τ} {w : Written} (hfree : s.holder = none) (haccepted : s.threads t = .accepted w) :
      Step service outcomes s .silent { s with
        holder := some ⟨t, some w, .entered⟩
        threads := Function.update s.threads t .enforcing }
  /-- the periodic thread gets the lock -/
  | enter_periodic {t : τ} (hfree : s.holder = none) (hidle : s.threads t = .idle) :
      Step service outcomes s .silent { s with
        holder := some ⟨t, none, .entered⟩
        threads := Function.update s.threads t .enforcing }
  -- the holder's next step
  | advance {c : Holder τ} {sh : Shared} {point : Point} (hholder : s.holder = some c)
      (h : Advance service.helper s.toShared c.point sh point) :
      Step service outcomes s .silent { s with
        toShared := sh
        holder := some { c with point := point } }
  /-- `enforce` returns, and the lock is released -/
  | leave {c : Holder τ} {sending : Sending} {count : ℕ} (hholder : s.holder = some c)
      (hpoint : c.point = .returning sending count) :
      Step service outcomes s (.returned c.thread count) { s with
        holder := none
        threads := Function.update s.threads c.thread (phase_after c.written (.ok count)) }
  /-- `enforce` raises, and the lock is released -/
  | leave_raising {c : Holder τ} {e : Failed} (hholder : s.holder = some c)
      (hpoint : c.point = .raising e) :
      Step service outcomes s .silent { s with
        holder := none
        threads := Function.update s.threads c.thread (phase_after c.written (.error e)) }
  /-- the end of `_finish_write` -/
  | reply {t : τ} {w : Written} {outcome : Except Failed ℕ} (surroundings : Surroundings)
      (hended : s.threads t = .ended w outcome) :
      Step service outcomes s
        (.replied t w (finish_response w.result
          (count_after surroundings ⟨s.db, s.pf, s.last_index⟩ w.client.id outcome)))
        { s with threads := Function.update s.threads t .idle }
  /-- the helper takes the next connection, of which only a part of the request may arrive -/
  | accept {r : Sending} (authorized : Bool) (received : ℕ) (file : Except ReadFailure Text)
      (hidle : s.work = none) (hnext : s.line.next = some r) :
      Step service outcomes s .silent { s with
        whitelists := s.whitelists ++
          (start service.helper file authorized (r.request.take received)).networks.toList
        work := some (start service.helper file authorized (r.request.take received)) }
  /-- the helper calls `pfctl` -/
  | call {work : Work} (hwork : s.work = some work) :
      Step service outcomes s .silent { s with
        work := some (work.next service.helper.sha256.hexdigest outcomes s.pf).1
        pf := (work.next service.helper.sha256.hexdigest outcomes s.pf).2 }
  /-- the helper answers -/
  | answer {result : Except Raised Applied} (hwork : s.work = some (.ended result))
      (hnext : s.line.next.isSome) :
      Step service outcomes s .silent { s with
        line := s.line.answer result hnext
        work := none }

/-! ## What a step can do

One statement for each part of the state: who made a request, what the helper is at, who holds the
lock and what was selected. The invariants are derived from these. -/

variable {service : Service} {outcomes : ℕ → Outcome} {s s' : State τ} {a : Label τ}

theorem Step.grows (h : Step service outcomes s a s') : Grows s.toShared s'.toShared := by
  cases h with
  | write hidle hwrite => exact Grows.commit _ _
  | prune now hidle => exact Grows.commit _ _
  | advance hholder hadvance => exact hadvance.grows
  | accept authorized received file hidle hnext =>
    exact ⟨List.prefix_rfl, fun networks hnetworks => List.mem_append_left _ hnetworks⟩
  | _ => exact Grows.of_eq rfl rfl

/-- The holder of the lock makes a request, the helper answers one, or nothing happens there. -/
theorem Step.line_cases (h : Step service outcomes s a s') :
    s'.line = s.line ∨
      (∃ c sending left last_error, s.holder = some c ∧
        c.point = .retrying sending left last_error ∧ s'.line = s.line.submit sending) ∨
      ∃ result hnext, s.work = some (.ended result) ∧ s'.line = s.line.answer result hnext ∧
        s'.work = none ∧ s'.pf = s.pf ∧ s'.holder = s.holder := by
  cases h with
  | @advance c sh point hholder hadvance =>
    rcases hadvance.line with hline | ⟨sending, left, last_error, hpoint, hline⟩
    · exact Or.inl hline
    · exact Or.inr (Or.inl ⟨c, sending, left, last_error, hholder, hpoint, hline⟩)
  | answer hwork hnext => exact Or.inr (Or.inr ⟨_, hnext, hwork, rfl, rfl, rfl, rfl⟩)
  | _ => exact Or.inl rfl

/-- The helper starts with a request, calls `pfctl` or answers, or nothing happens there. -/
theorem Step.work_cases (h : Step service outcomes s a s') :
    (s'.work = s.work ∧ s'.pf = s.pf) ∨
      (∃ r authorized received file, s.work = none ∧ s.line.next = some r ∧ s'.line = s.line ∧
        s'.work = some (start service.helper file authorized (r.request.take received)) ∧
        (∀ networks, (start service.helper file authorized (r.request.take received)).networks =
          some networks → networks ∈ s'.whitelists) ∧ s'.pf = s.pf) ∨
      (∃ work, s.work = some work ∧ s'.line = s.line ∧
        s'.work = some (work.next service.helper.sha256.hexdigest outcomes s.pf).1 ∧
        s'.pf = (work.next service.helper.sha256.hexdigest outcomes s.pf).2) ∨
      (s'.work = none ∧ s'.pf = s.pf) := by
  cases h with
  | @accept r authorized received file hidle hnext =>
    refine Or.inr (Or.inl ⟨r, authorized, received, file, hidle, hnext, rfl, rfl, ?_, rfl⟩)
    intro networks hnetworks
    refine List.mem_append_right _ ?_
    rw [hnetworks]
    exact List.mem_singleton.mpr rfl
  | @call work hwork => exact Or.inr (Or.inr (Or.inl ⟨work, hwork, rfl, rfl, rfl⟩))
  | answer hwork hnext => exact Or.inr (Or.inr (Or.inr ⟨rfl, rfl⟩))
  | _ => exact Or.inl ⟨rfl, rfl⟩

/-- Who holds the lock held it before, or has just got it, or made a step. -/
theorem Step.holder_cases (h : Step service outcomes s a s') {c' : Holder τ}
    (hholder : s'.holder = some c') :
    (s.holder = some c' ∧ (s'.line = s.line ∨
        ∃ result hnext, s'.line = s.line.answer result hnext)) ∨
      (c'.point = .entered ∧ ∀ w, c'.written = some w → s.threads c'.thread = .accepted w) ∨
      ∃ c, s.holder = some c ∧ c'.written = c.written ∧
        Advance service.helper s.toShared c.point s'.toShared c'.point := by
  cases h with
  | enter hfree haccepted =>
    cases hholder
    refine Or.inr (Or.inl ⟨rfl, fun w hw => ?_⟩)
    cases hw
    exact haccepted
  | enter_periodic hfree hidle =>
    cases hholder
    exact Or.inr (Or.inl ⟨rfl, fun w hw => (by cases hw)⟩)
  | advance hc hadvance =>
    cases hholder
    exact Or.inr (Or.inr ⟨_, hc, rfl, hadvance⟩)
  | leave hc hpoint => cases hholder
  | leave_raising hc hpoint => cases hholder
  | answer hwork hnext => exact Or.inl ⟨hholder, Or.inr ⟨_, hnext, rfl⟩⟩
  | _ => exact Or.inl ⟨hholder, Or.inl rfl⟩

/-- A selection was there before, or it is from the present state of the store. -/
theorem Step.selection (h : Step service outcomes s a s') {c' : Holder τ} {selection : Selection}
    (hholder : s'.holder = some c') (hselection : c'.point.selection = some selection) :
    (∃ c, s.holder = some c ∧ c.point.selection = some selection) ∨ selection.version = s.version := by
  rcases h.holder_cases hholder with ⟨hc, -⟩ | ⟨hentered, -⟩ | ⟨c, hc, -, hadvance⟩
  · exact Or.inl ⟨c', hc, hselection⟩
  · rw [hentered] at hselection
    cases hselection
  · rcases hadvance.selection hselection with hsame | hnew
    · exact Or.inl ⟨c, hc, hsame⟩
    · exact Or.inr hnew

/-! ## One thread and the helper

A thread that is left alone makes the calls of the sequential functions, one step after the other,
and ends with their results. So the steps and the functions describe one program. -/

/-- Nothing waits for the helper, and the shared state is that of a world. -/
structure Alone (s : State τ) (w : World) : Prop where
  db : s.db = w.db
  pf : s.pf = w.pf
  last_index : s.last_index = w.last_index
  idle : s.work = none
  waiting : s.line.waiting = []

omit [DecidableEq τ] in
/-- Who holds the lock and where the threads are does not matter to the others. -/
theorem Alone.moved {s : State τ} {w : World} (h : Alone s w) (holder : Option (Holder τ))
    (threads : τ → Phase) : Alone { s with
      holder := holder
      threads := threads } w :=
  ⟨h.db, h.pf, h.last_index, h.idle, h.waiting⟩

/-- The helper makes a number of calls. -/
theorem calls_run (n : ℕ) : ∀ {s : State τ} {work : Work}, s.work = some work →
    ∃ labels : List (Label τ), Run (Step service outcomes) s labels { s with
      work := some (Work.run service.helper.sha256.hexdigest outcomes n work s.pf).1
      pf := (Work.run service.helper.sha256.hexdigest outcomes n work s.pf).2 } := by
  induction n with
  | zero =>
    intro s work hwork
    refine ⟨[], ?_⟩
    have hsame : { s with work := some work, pf := s.pf } = s := by rw [← hwork]
    rw [Work.run, hsame]
    exact Run.nil
  | succ n ih =>
    intro s work hwork
    obtain ⟨labels, hrun⟩ := @ih { s with
      work := some (work.next service.helper.sha256.hexdigest outcomes s.pf).1
      pf := (work.next service.helper.sha256.hexdigest outcomes s.pf).2 } _ rfl
    rw [run_succ]
    exact ⟨_, hrun.cons (Step.call hwork)⟩

/-- The helper carries out the request that is next, and answers it. -/
theorem carry_out_run {s : State τ} {r : Sending} (hidle : s.work = none)
    (hnext : s.line.next = some r) (authorized : Bool) (received : ℕ) (file : Except ReadFailure Text) :
    ∃ (labels : List (Label τ)) (whitelists : List (List IPNetwork)) (hsome : s.line.next.isSome),
      Run (Step service outcomes) s labels { s with
        whitelists := whitelists
        line := s.line.answer (carry_out service.helper outcomes file authorized
          (r.request.take received) s.pf).1 hsome
        pf := (carry_out service.helper outcomes file authorized (r.request.take received) s.pf).2
        work := none } := by
  have haccept : Step service outcomes s .silent _ := Step.accept authorized received file hidle hnext
  obtain ⟨labels, hcalls⟩ := @calls_run τ _ service outcomes 6 { s with
    whitelists := s.whitelists ++
      (start service.helper file authorized (r.request.take received)).networks.toList
    work := some (start service.helper file authorized (r.request.take received)) } _ rfl
  rw [carry_out_eq_run] at hcalls
  have hsome : s.line.next.isSome := by
    rw [hnext]
    rfl
  have hanswer := @Step.answer τ _ service outcomes { s with
    whitelists := s.whitelists ++
      (start service.helper file authorized (r.request.take received)).networks.toList
    work := some (.ended (carry_out service.helper outcomes file authorized
      (r.request.take received) s.pf).1)
    pf := (carry_out service.helper outcomes file authorized (r.request.take received) s.pf).2 }
    _ rfl hsome
  exact ⟨_, _, hsome, (hcalls.cons haccept).snoc hanswer⟩

/-- An attempt whose request is handled at once. -/
theorem attempt_run {s : State τ} {w : World} {c : Holder τ} {sending : Sending} {left : ℕ}
    {last_error : Text} (halone : Alone s w) (hholder : s.holder = some c)
    (hpoint : c.point = .retrying sending (left + 1) last_error) (exchange : Exchange)
    (file : Except ReadFailure Text) :
    ∃ (labels : List (Label τ)) (s' : State τ), Run (Step service outcomes) s labels s' ∧
      Alone s' { w with
        pf := (attempt service.helper outcomes file exchange sending.request w.pf).2 } ∧
      s'.threads = s.threads ∧
      s'.holder = some ⟨c.thread, c.written, point_after sending left
        (attempt service.helper outcomes file exchange sending.request w.pf).1⟩ := by
  obtain ⟨db, pf, last_index⟩ := w
  obtain ⟨rfl, rfl, rfl, hidle, hwaiting⟩ := halone
  have hconnect : Step service outcomes s .silent _ :=
    Step.advance hholder (by rw [hpoint]; exact Advance.connect)
  obtain ⟨labels, whitelists, hsome, hcarry⟩ := @carry_out_run τ _ service outcomes { s with
    line := s.line.submit sending
    holder := some ⟨c.thread, c.written, .connected sending left s.line.requests.length⟩ } sending
    hidle (Line.next_submit_of_waiting hwaiting sending) exchange.authorized exchange.received file
  rw [attempt_eq]
  dsimp only at hcarry ⊢
  generalize carry_out service.helper outcomes file exchange.authorized
    (sending.request.take exchange.received) s.pf = carried at hcarry ⊢
  have hanswered := Line.answered_of_waiting hwaiting sending carried.1 hsome
  have hread : Step service outcomes { s with
      whitelists := whitelists
      line := (s.line.submit sending).answer carried.1 hsome
      pf := carried.2
      work := none
      holder := some ⟨c.thread, c.written, .connected sending left s.line.requests.length⟩ } .silent _ :=
    Step.advance rfl (Advance.of_read hanswered.2 exchange.returned)
  refine ⟨_, _, (hcarry.cons hconnect).snoc hread, ?_, rfl, rfl⟩
  refine ⟨rfl, rfl, rfl, rfl, Line.waiting_of_last hanswered ?_⟩
  rw [Line.requests_answer, Line.requests_submit, List.length_append, List.length_singleton]

/-- The loop over the attempts, each handled at once. -/
theorem tries_run (file : Except ReadFailure Text) {sending : Sending} (exchanges : List Exchange) :
    ∀ {s : State τ} {w : World} {c : Holder τ} {last_error : Text}, Alone s w → s.holder = some c →
      c.point = .retrying sending exchanges.length last_error →
      ∃ (labels : List (Label τ)) (s' : State τ), Run (Step service outcomes) s labels s' ∧
        Alone s' { w with pf := (try_exchanges service.helper outcomes file retries sending.request
          exchanges last_error w.pf).2 } ∧
        s'.threads = s.threads ∧
        s'.holder = some ⟨c.thread, c.written, point_tried sending (try_exchanges service.helper outcomes
          file retries sending.request exchanges last_error w.pf).1⟩ := by
  induction exchanges with
  | nil =>
    intro s w c last_error halone hholder hpoint
    have hgive : Step service outcomes s .silent _ :=
      Step.advance hholder (by rw [hpoint]; exact Advance.give_up)
    exact ⟨_, _, Run.single hgive, halone.moved _ _, rfl, rfl⟩
  | cons exchange exchanges ih =>
    intro s w c last_error halone hholder hpoint
    obtain ⟨labels, s₁, hrun, halone₁, hthreads₁, hholder₁⟩ :=
      @attempt_run τ _ service outcomes s w c sending exchanges.length last_error halone hholder hpoint
        exchange file
    rw [try_exchanges]
    rcases hattempt : attempt service.helper outcomes file exchange sending.request w.pf with ⟨r, pf⟩
    rw [hattempt] at halone₁ hholder₁
    -- the rest of the loop, after an attempt that failed
    have hrest : ∀ message, point_after sending exchanges.length r =
        .retrying sending exchanges.length message →
        ∃ (labels : List (Label τ)) (s' : State τ), Run (Step service outcomes) s labels s' ∧
          Alone s' { w with pf := (try_exchanges service.helper outcomes file retries sending.request
            exchanges message pf).2 } ∧
          s'.threads = s.threads ∧
          s'.holder = some ⟨c.thread, c.written, point_tried sending (try_exchanges service.helper
            outcomes file retries sending.request exchanges message pf).1⟩ := by
      intro message hmessage
      obtain ⟨labels', s₂, hrun', halone₂, hthreads₂, hholder₂⟩ := ih halone₁ hholder₁ hmessage
      exact ⟨_, s₂, hrun.append hrun', halone₂, hthreads₂.trans hthreads₁, hholder₂⟩
    cases r with
    | ok response => exact ⟨labels, s₁, hrun, halone₁, hthreads₁, hholder₁⟩
    | error e =>
      cases e with
      | os_error => exact hrest _ rfl
      | caught message => exact hrest _ rfl
      | escaped => exact ⟨labels, s₁, hrun, halone₁, hthreads₁, hholder₁⟩

/-- The call raises, and its thread goes on. -/
theorem raise_run {s : State τ} {world : World} {t : τ} {w : Written} {e : Failed}
    (halone : Alone s world) (hholder : s.holder = some ⟨t, some w, .raising e⟩) :
    ∃ (labels : List (Label τ)) (s' : State τ), Run (Step service outcomes) s labels s' ∧
      Alone s' world ∧ s'.holder = none ∧ s'.threads t = .ended w (.error e) := by
  exact ⟨_, _, Run.single (Step.leave_raising hholder rfl), halone.moved _ _, rfl,
    Function.update_self _ _ _⟩

/-- The call records that it failed, and raises. -/
theorem fail_run {s : State τ} {world : World} {t : τ} {w : Written} {selection : Selection}
    {e : Failed} (halone : Alone s world)
    (hholder : s.holder = some ⟨t, some w, .failing selection e⟩) (fails : Bool) (time : ℚ) :
    ∃ (labels : List (Label τ)) (s' : State τ), Run (Step service outcomes) s labels s' ∧
      Alone s' (if fails then world else { world with
        db := Store.record_enforcement_failure world.db
          (desired_digest service.helper selection.desired) (failure_message e) time }) ∧
      s'.holder = none ∧
      s'.threads t = .ended w (.error (if fails then .database
        else .enforcement_error ⟨failure_message e⟩)) := by
  cases fails with
  | true =>
    have hfails : Step service outcomes s .silent _ := Step.advance hholder Advance.failure_fails
    obtain ⟨labels, s', hrun, h⟩ := @raise_run τ _ service outcomes { s with
      holder := some ⟨t, some w, .raising .database⟩ } world t w _ (halone.moved _ _) rfl
    exact ⟨_, s', hrun.cons hfails, h⟩
  | false =>
    have hrecord : Step service outcomes s .silent _ := Step.advance hholder (Advance.failure time)
    obtain ⟨labels, s', hrun, h⟩ := @raise_run τ _ service outcomes { s with
      toShared := s.commit (Store.record_enforcement_failure s.db
        (desired_digest service.helper selection.desired) (failure_message e) time)
      holder := some ⟨t, some w, .raising (.enforcement_error ⟨failure_message e⟩)⟩ }
      { world with
        db := Store.record_enforcement_failure world.db
          (desired_digest service.helper selection.desired) (failure_message e) time } t w _
      ⟨by rw [← halone.db]; rfl, halone.pf, halone.last_index, halone.idle, halone.waiting⟩ rfl
    exact ⟨_, s', hrun.cons hrecord, h⟩

/-- The call records that it succeeded, and returns. -/
theorem succeed_run {s : State τ} {world : World} {t : τ} {w : Written} {sending : Sending}
    {response : HelperClient.Response} (halone : Alone s world)
    (hholder : s.holder = some ⟨t, some w, .confirmed sending response⟩) (time : ℚ) :
    ∃ (labels : List (Label τ)) (s' : State τ), Run (Step service outcomes) s labels s' ∧
      Alone s' {
        db := Store.record_enforcement_success world.db
          (desired_digest service.helper sending.desired) response.digest response.applied_ipv4
          response.applied_ipv6 time
        pf := world.pf
        last_index := some (NetworkIndex.of_networks sending.networks) } ∧
      s'.holder = none ∧
      s'.threads t = .ended w (.ok (response.applied_ipv4 + response.applied_ipv6)) := by
  have hrecord : Step service outcomes s .silent _ := Step.advance hholder (Advance.success time)
  have hleave := @Step.leave τ _ service outcomes { s with
    toShared := { s.commit (Store.record_enforcement_success s.db
        (desired_digest service.helper sending.desired) response.digest response.applied_ipv4
        response.applied_ipv6 time) with
      last_index := some (NetworkIndex.of_networks sending.networks) }
    holder := some ⟨t, some w, .returning sending (response.applied_ipv4 + response.applied_ipv6)⟩ }
    _ _ _ rfl rfl
  refine ⟨_, _, (Run.single hrecord).snoc hleave, ?_, rfl, Function.update_self _ _ _⟩
  exact ⟨by rw [← halone.db]; rfl, halone.pf, rfl, halone.idle, halone.waiting⟩

/-- The rest of `enforce`, once the attempt was recorded. -/
def enforce_attempted (env : HelperClient.Env) (s : Surroundings) (w : World)
    (desired : List Text × List Text) : Except Failed ℕ × World :=
  match replace_desired env s desired.1 desired.2 w.pf with
  | (.error e, pf) =>
      if s.database_fails .failure then (.error .database, { w with pf })
      else (.error (.enforcement_error ⟨failure_message e⟩), { w with
        db := Store.record_enforcement_failure w.db (desired_digest env desired) (failure_message e)
          s.clock.finished
        pf })
  | (.ok (index, response), pf) =>
      if s.database_fails .success then (.error .database, { w with pf })
      else (.ok (response.applied_ipv4 + response.applied_ipv6), {
        db := Store.record_enforcement_success w.db (desired_digest env desired) response.digest
          response.applied_ipv4 response.applied_ipv6 s.clock.finished
        pf, last_index := some index })

theorem enforce_eq (env : HelperClient.Env) (s : Surroundings) (w : World) : enforce env s w =
    if s.database_fails .select then (.error .database, w)
    else
      match Store.effective_ips w.db s.clock.selected with
      | none => (.error .other, w)
      | some desired =>
          if s.database_fails .attempt then (.error .database, w)
          else enforce_attempted env s { w with
            db := Store.record_enforcement_attempt w.db (desired_digest env desired)
              s.clock.attempted } desired := by
  unfold enforce
  split
  · rfl
  cases Store.effective_ips w.db s.clock.selected with
  | none => rfl
  | some desired => rfl

theorem attempted_run {s : State τ} {world : World} {t : τ} {w : Written} {selection : Selection}
    (halone : Alone s world) (hholder : s.holder = some ⟨t, some w, .attempted selection⟩)
    (sur : Surroundings) (hretries : sur.exchanges.length = retries) :
    ∃ (labels : List (Label τ)) (s' : State τ), Run (Step service sur.outcomes) s labels s' ∧
      Alone s' (enforce_attempted service.helper sur world selection.desired).2 ∧ s'.holder = none ∧
      s'.threads t = .ended w (enforce_attempted service.helper sur world selection.desired).1 := by
  unfold enforce_attempted
  rw [replace_desired_eq_prepare]
  cases hprepare : prepare service.helper sur.server_file selection.desired with
  | error e =>
    -- the whitelist cannot be read: the failure is recorded
    have hfails : Step service sur.outcomes s .silent _ :=
      Step.advance hholder (Advance.prepare_fails sur.server_file hprepare)
    obtain ⟨labels, s', hrun, halone', hfree, hthread⟩ := @fail_run τ _ service sur.outcomes { s with
      holder := some ⟨t, some w, .failing selection e⟩ } world t w selection e (halone.moved _ _) rfl
      (sur.database_fails .failure) sur.clock.finished
    refine ⟨_, s', hrun.cons hfails, ?_⟩
    dsimp only
    cases hdatabase : sur.database_fails .failure with
    | true =>
      rw [hdatabase] at halone' hthread
      exact ⟨halone', hfree, hthread⟩
    | false =>
      rw [hdatabase] at halone' hthread
      exact ⟨halone', hfree, hthread⟩
  | ok prepared =>
    obtain ⟨networks, request⟩ := prepared
    -- the exchanges are those of the loop over `retries`
    have hprepared : Step service sur.outcomes s .silent _ :=
      Step.advance hholder (Advance.prepare sur.server_file hprepare)
    obtain ⟨labels, s₁, hrun, halone₁, hthreads₁, hholder₁⟩ := @tries_run τ _ service sur.outcomes
      sur.helper_file ⟨selection, networks, request⟩ sur.exchanges { s with
        whitelists := s.whitelists ++ [networks]
        holder := some ⟨t, some w, .retrying ⟨selection, networks, request⟩ retries
          "helper unavailable".toList⟩ } world _ _
      ⟨halone.db, halone.pf, halone.last_index, halone.idle, halone.waiting⟩ rfl (by rw [hretries])
    rw [← hretries] at halone₁ hholder₁
    dsimp only
    dsimp only at halone₁ hholder₁
    generalize try_exchanges service.helper sur.outcomes sur.helper_file sur.exchanges.length request
      sur.exchanges "helper unavailable".toList world.pf = tried at halone₁ hholder₁ ⊢
    obtain ⟨r, pf⟩ := tried
    cases r with
    | error e =>
      obtain ⟨labels', s', hrun', halone', hfree, hthread⟩ := @fail_run τ _ service sur.outcomes s₁ _ t w
        selection e halone₁ hholder₁ (sur.database_fails .failure) sur.clock.finished
      refine ⟨_, s', (hrun.append hrun').cons hprepared, ?_⟩
      dsimp only [Except.map]
      cases hdatabase : sur.database_fails .failure with
      | true =>
        rw [hdatabase] at halone' hthread
        exact ⟨halone', hfree, hthread⟩
      | false =>
        rw [hdatabase] at halone' hthread
        exact ⟨halone', hfree, hthread⟩
    | ok response =>
      dsimp only [Except.map]
      cases hdatabase : sur.database_fails .success with
      | true =>
        have hfails : Step service sur.outcomes s₁ .silent _ :=
          Step.advance hholder₁ Advance.success_fails
        obtain ⟨labels', s', hrun', h⟩ := @raise_run τ _ service sur.outcomes { s₁ with
          holder := some ⟨t, some w, .raising .database⟩ } _ t w _ (halone₁.moved _ _) rfl
        exact ⟨_, s', (hrun.append (hrun'.cons hfails)).cons hprepared, h⟩
      | false =>
        -- the confirmed tables are recorded and the index is replaced
        obtain ⟨labels', s', hrun', h⟩ := @succeed_run τ _ service sur.outcomes s₁ _ t w _ response
          halone₁ hholder₁ sur.clock.finished
        exact ⟨_, s', (hrun.append hrun').cons hprepared, h⟩

/-- A call of `enforce` that is not disturbed is a run: its result, the store, the tables and the
index are those of `Enforcer.enforce`. -/
theorem enforce_run {s : State τ} {world : World} {t : τ} {w : Written} (halone : Alone s world)
    (hfree : s.holder = none) (haccepted : s.threads t = .accepted w) (sur : Surroundings)
    (hretries : sur.exchanges.length = retries) :
    ∃ (labels : List (Label τ)) (s' : State τ), Run (Step service sur.outcomes) s labels s' ∧
      Alone s' (enforce service.helper sur world).2 ∧ s'.holder = none ∧
      s'.threads t = .ended w (enforce service.helper sur world).1 := by
  have henter : Step service sur.outcomes s .silent _ := Step.enter hfree haccepted
  generalize hs₁ : ({ s with
    holder := some ⟨t, some w, .entered⟩
    threads := Function.update s.threads t .enforcing } : State τ) = s₁ at henter
  have halone₁ : Alone s₁ world := by
    subst hs₁
    exact halone.moved _ _
  have hholder₁ : s₁.holder = some ⟨t, some w, .entered⟩ := by
    subst hs₁
    rfl
  -- moving through the call changes neither the tables nor the others
  have hmoved : ∀ point, Alone { s₁ with holder := some ⟨t, some w, point⟩ } world := fun point =>
    halone₁.moved _ _
  rw [enforce_eq]
  by_cases hselect : sur.database_fails .select = true
  · rw [if_pos hselect]
    have hfails : Step service sur.outcomes s₁ .silent _ := Step.advance hholder₁
      (@Advance.select_fails _ _ 0 .database (Or.inl rfl))
    obtain ⟨labels, s', hrun, h⟩ :=
      @raise_run τ _ service sur.outcomes _ world t w _ (hmoved (.raising .database)) rfl
    exact ⟨_, s', (hrun.cons hfails).cons henter, h⟩
  rw [if_neg hselect]
  cases hdesired : Store.effective_ips world.db sur.clock.selected with
  | none =>
    have hfails : Step service sur.outcomes s₁ .silent _ := Step.advance hholder₁
      (@Advance.select_fails _ _ sur.clock.selected .other
        (Or.inr ⟨rfl, by rw [halone₁.db]; exact hdesired⟩))
    obtain ⟨labels, s', hrun, h⟩ :=
      @raise_run τ _ service sur.outcomes _ world t w _ (hmoved (.raising .other)) rfl
    exact ⟨_, s', (hrun.cons hfails).cons henter, h⟩
  | some desired =>
    dsimp only
    have hselected : Step service sur.outcomes s₁ .silent _ := Step.advance hholder₁
      (Advance.select sur.clock.selected (by rw [halone₁.db]; exact hdesired))
    by_cases hattempt : sur.database_fails .attempt = true
    · rw [if_pos hattempt]
      have hfails := @Step.advance τ _ service sur.outcomes { s₁ with
        holder := some ⟨t, some w, .selected ⟨s₁.version, sur.clock.selected, desired⟩⟩ } _ _ _ rfl
        Advance.attempt_fails
      obtain ⟨labels, s', hrun, h⟩ :=
        @raise_run τ _ service sur.outcomes _ world t w _ (hmoved (.raising .database)) rfl
      exact ⟨_, s', ((hrun.cons hfails).cons hselected).cons henter, h⟩
    · rw [if_neg hattempt]
      -- the attempt is recorded before the whitelist is read
      have hrecord := @Step.advance τ _ service sur.outcomes { s₁ with
        holder := some ⟨t, some w, .selected ⟨s₁.version, sur.clock.selected, desired⟩⟩ } _ _ _ rfl
        (Advance.attempt sur.clock.attempted)
      obtain ⟨labels, s', hrun, h⟩ := @attempted_run τ _ service { s₁ with
          toShared := s₁.commit (Store.record_enforcement_attempt s₁.db
            (desired_digest service.helper desired) sur.clock.attempted)
          holder := some ⟨t, some w, .attempted ⟨s₁.version, sur.clock.selected, desired⟩⟩ }
        { world with
          db := Store.record_enforcement_attempt world.db (desired_digest service.helper desired)
            sur.clock.attempted } t w ⟨s₁.version, sur.clock.selected, desired⟩
        ⟨by rw [← halone₁.db]; rfl, halone₁.pf, halone₁.last_index, halone₁.idle, halone₁.waiting⟩ rfl
        sur hretries
      exact ⟨_, s', ((hrun.cons hrecord).cons hselected).cons henter, h⟩

/-! ## A request that comes too late

A call gives up, its request stays in line, and the helper carries it out when nobody asks any
more. -/

/-- **A call that gives up.** Its request reaches the helper's socket, the answer does not come in
time, and no other attempt gets through. The call records that it failed and raises, and the
request stays in line: nobody waits for it any more, and nothing takes it back. -/
theorem timed_out_run {s : State τ} {t : τ} {w : Written} (hfree : s.holder = none)
    (haccepted : s.threads t = .accepted w) {boundary : ℚ} {desired : List Text × List Text}
    {file : Except Failed Text} {networks : List IPNetwork} {request : Text}
    (hselect : Store.effective_ips s.db boundary = some desired)
    (hprepare : prepare service.helper file desired = .ok (networks, request)) (time : ℚ) :
    ∃ (labels : List (Label τ)) (s' : State τ) (sending : Sending),
      Run (Step service outcomes) s labels s' ∧ sending.request = request ∧
      s'.line = s.line.submit sending ∧ s'.work = s.work ∧ s'.pf = s.pf ∧ s'.holder = none ∧
      s'.last_index = s.last_index ∧
      s'.db = Store.record_enforcement_failure (Store.record_enforcement_attempt s.db
        (desired_digest service.helper desired) time) (desired_digest service.helper desired)
        (failure_message (too_many "PF helper unavailable".toList)) time ∧
      s'.threads = Function.update (Function.update s.threads t .enforcing) t (.ended w
        (.error (.enforcement_error ⟨failure_message (too_many "PF helper unavailable".toList)⟩))) := by
  refine ⟨_, _, ⟨⟨s.version, boundary, desired⟩, networks, request⟩,
    Run.cons (Step.enter hfree haccepted) <|
    Run.cons (Step.advance rfl (Advance.select boundary hselect)) <|
    Run.cons (Step.advance rfl (Advance.attempt time)) <|
    Run.cons (Step.advance rfl (Advance.prepare file hprepare)) <|
    Run.cons (Step.advance rfl Advance.connect) <|
    Run.cons (Step.advance rfl Advance.timeout) <|
    Run.cons (Step.advance rfl Advance.unreachable) <|
    Run.cons (Step.advance rfl Advance.unreachable) <|
    Run.cons (Step.advance rfl Advance.give_up) <|
    Run.cons (Step.advance rfl (Advance.failure time)) <|
    Run.single (Step.leave_raising rfl rfl), rfl, rfl, rfl, rfl, rfl, rfl, rfl, rfl⟩

/-- The helper carries it out all the same, and then nothing waits. -/
theorem late_run {s : State τ} {line : Line Sending (Except Raised Applied)} {sending : Sending}
    (hidle : s.work = none) (hwaiting : line.waiting = []) (hline : s.line = line.submit sending)
    (exchange : Exchange) (file : Except ReadFailure Text) :
    ∃ (labels : List (Label τ)) (s' : State τ), Run (Step service outcomes) s labels s' ∧
      Alone s' ⟨s.db, (carry_out service.helper outcomes file exchange.authorized
        (sending.request.take exchange.received) s.pf).2, s.last_index⟩ ∧
      s'.threads = s.threads ∧ s'.holder = s.holder ∧ s'.line.requests = s.line.requests := by
  have hnext : s.line.next = some sending := by
    rw [hline]
    exact Line.next_submit_of_waiting hwaiting sending
  have hlast : ∀ result (hsome : s.line.next.isSome), (s.line.answer result hsome).waiting = [] := by
    rw [hline]
    intro result hsome
    refine Line.waiting_of_last (Line.answered_of_waiting hwaiting sending result hsome) ?_
    rw [Line.requests_answer, Line.requests_submit, List.length_append, List.length_singleton]
  obtain ⟨labels, whitelists, hsome, hrun⟩ := @carry_out_run τ _ service outcomes s sending hidle hnext
    exchange.authorized exchange.received file
  exact ⟨labels, _, hrun, ⟨rfl, rfl, rfl, rfl, hlast _ hsome⟩, rfl, rfl, rfl⟩

/-- A POST that is not disturbed changes nothing, or it is a run that ends with its reply. -/
theorem post_run {s : State τ} {world : World} {t : τ} {client : RegisteredClient}
    {request : HttpRequest} {moment : Moment} (halone : Alone s world) (hfree : s.holder = none)
    (hidle : s.threads t = .idle) (hretries : moment.surroundings.exchanges.length = retries) :
    (post service client request moment world).2 = world ∨
      ∃ (written : Written) (labels : List (Label τ)) (s' : State τ),
        Run (Step service moment.surroundings.outcomes) s labels s' ∧
        Alone s' (post service client request moment world).2 ∧
        .replied t written (post service client request moment world).1 ∈ labels := by
  unfold post
  cases Handler._body service.server request with
  | error response => exact Or.inl rfl
  | ok raw =>
  dsimp only
  cases path_of request.path with
  | none => exact Or.inl rfl
  | some path =>
  dsimp only
  rcases hwrite : Handler.write service.server client.toClientConfig world.db path raw moment with
    ⟨result, db⟩
  rcases write_cases hwrite with ⟨e, rfl, rfl⟩ | ⟨posted, r, -, rfl, -, -⟩
  · exact Or.inl rfl
  right
  dsimp only
  rw [enforce_and_count_eq]
  have hstored : Step service moment.surroundings.outcomes s .silent _ :=
    Step.write hidle (by rw [halone.db]; exact hwrite)
  obtain ⟨labels, s₁, hrun, halone₁, -, hended⟩ := @enforce_run τ _ service { s with
      toShared := s.commit db
      threads := Function.update s.threads t (.accepted ⟨client, r, s.version + 1⟩) }
    { world with db } t ⟨client, r, s.version + 1⟩
    ⟨rfl, halone.pf, halone.last_index, halone.idle, halone.waiting⟩ hfree
    (Function.update_self _ _ _) moment.surroundings hretries
  have hreply : Step service moment.surroundings.outcomes s₁ _ _ :=
    Step.reply moment.surroundings hended
  have hworld : (⟨s₁.db, s₁.pf, s₁.last_index⟩ : World) =
      (enforce service.helper moment.surroundings { world with db }).2 := by
    rw [halone₁.db, halone₁.pf, halone₁.last_index]
  rw [hworld] at hreply
  refine ⟨⟨client, r, s.version + 1⟩, _, _, (hrun.cons hstored).snoc hreply, halone₁.moved _ _, ?_⟩
  exact List.mem_append_right _ (List.mem_singleton.mpr rfl)

end Step

end F2bguard.Interleaving
