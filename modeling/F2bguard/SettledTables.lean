/-
The tables after a reply.

Any number of threads write, enforce and reply while the helper carries out one request after the
other, some of them long after anybody waits for the answer. When an enforcement returns, every
request made so far has been handled. From then on whatever reaches the tables was computed from a
state of the store at least as recent as the one this enforcement selected from (`Settled`): the
requests wait in the order of the states they were computed from, a new one is computed from the
present state, and a rollback restores what such a request has set. Every step keeps that
(`Step.settled`), so no older set is applied after the reply (`no_older_set`).
-/
import F2bguard.Interleaving

set_option autoImplicit false

namespace F2bguard.Interleaving

open F2bguard.PyText F2bguard.PyJson F2bguard.Ipaddress F2bguard.Networks F2bguard.Whitelist
open F2bguard.PfHelper F2bguard.HelperClient F2bguard.HelperSteps F2bguard.Enforcer
open F2bguard.EnforcerSteps F2bguard.Handler F2bguard.Fifo F2bguard.Runs
open F2bguard.Store (DB Served ApplyResult)

/-! ## Invariants

Some speak about every state, and one, `Settled`, about every state from an enforcement that
returned on. It holds of all ways in which something can reach the tables. -/

section Invariants

variable {τ : Type}

/-- From now on the tables hold only what was computed from the state with this number or a later
one: what they hold, what the helper may restore, what waits and what is being prepared. -/
structure Settled (s : State τ) (p : ℕ) : Prop where
  version_le : p ≤ s.version
  held : ∀ version, Since s.toShared p version (held s.pf version)
  work : ∀ work, s.work = some work → Supported (Since s.toShared p) work
  waiting : ∀ r ∈ s.line.waiting, p ≤ r.version
  selection : ∀ c, s.holder = some c → ∀ selection, c.point.selection = some selection →
    p ≤ selection.version

/-- A write led from a state of the store to the next one. -/
def Placed (service : Service) (sh : Shared) (w : Written) : Prop :=
  ∃ (k : ℕ) (path : Claims.Path) (raw : Json) (moment : Moment) (before after : DB),
    w.position = k + 1 ∧ sh.history[k]? = some before ∧ sh.history[k + 1]? = some after ∧
    Handler.write service.server w.client.toClientConfig before path raw moment =
      (.ok w.result, after)

/-- The helper works on the request that is next, with a whitelist it has read. -/
structure WorkSound (s : State τ) (work : Work) : Prop where
  sets : ∃ r, s.line.next = some r ∧ Sets (Since s.toShared r.version) s.pf work
  read : ∀ networks, work.networks = some networks → networks ∈ s.whitelists

/-- What is selected for a write includes it. -/
structure HolderSound (service : Service) (s : State τ) (c : Holder τ) : Prop where
  point : c.point.Sound service.helper s.toShared
  written : ∀ w, c.written = some w → Placed service s.toShared w ∧
    ∀ selection, c.point.selection = some selection → w.position ≤ selection.version

/-- What a thread has behind it. When its enforcement has returned, the tables are settled as far
as its write. -/
def PhaseSound (service : Service) (s : State τ) : Phase → Prop
  | .idle => True
  | .accepted w => Placed service s.toShared w
  | .enforcing => True
  | .ended w (.ok _) => Placed service s.toShared w ∧ Settled s w.position
  | .ended _ (.error _) => True

/-- The invariants of every state: what is stored was validated, requests wait in the order of
their states, and everybody's knowledge is right. -/
structure Sound (service : Service) (s : State τ) : Prop where
  served : ∀ db ∈ s.history, Served service.server.store db
  ordered : s.line.Ordered (fun r => r.version)
  computed : ∀ r ∈ s.line.requests, Computed service.helper s.toShared r
  plain : ∀ e, .error e ∈ s.line.answers → PlainText (error_message e)
  work : ∀ work, s.work = some work → WorkSound s work
  holder : ∀ c, s.holder = some c → HolderSound service s c
  answered : ∀ i r a, s.line.Answered i r (.ok a) → Settled s r.version
  threads : ∀ t, PhaseSound service s (s.threads t)

theorem Sound.initial {service : Service} {db : DB} (hserved : Served service.server.store db) (pf : PF) :
    Sound service (State.initial db pf : State τ) where
  served db' hdb' := by rwa [List.mem_singleton.mp hdb']
  ordered := List.Pairwise.nil
  computed r hr := by cases hr
  plain e he := by cases he
  work work hwork := by cases hwork
  holder c hc := by cases hc
  answered i r applied hanswered := by cases hanswered.1
  threads t := trivial

theorem Placed.mono {service : Service} {sh sh' : Shared} (hgrows : Grows sh sh') {w : Written}
    (h : Placed service sh w) : Placed service sh' w := by
  obtain ⟨k, path, raw, moment, before, after, hk, hbefore, hafter, hwrite⟩ := h
  exact ⟨k, path, raw, moment, before, after, hk, hgrows.getElem? hbefore, hgrows.getElem? hafter,
    hwrite⟩

theorem Placed.le_version {service : Service} {sh : Shared} {w : Written} (h : Placed service sh w) :
    w.position ≤ sh.version := by
  obtain ⟨k, path, raw, moment, before, after, hk, -, hafter, -⟩ := h
  rw [hk]
  exact Shared.le_version hafter

/-- What was computed from a later state was computed from one not older than an earlier one. -/
theorem Settled.of_le {service : Service} {s : State τ} (hsound : Sound service s) {p q : ℕ}
    (hle : q ≤ p) (h : Settled s p) : Settled s q where
  version_le := hle.trans h.version_le
  held version := (h.held version).of_le hle
  work work hwork := (h.work work hwork).mono (fun _ _ hsince => hsince.of_le hle)
    (fun networks hnetworks => Since.closed ((hsound.work work hwork).read networks hnetworks) q)
  waiting r hr := hle.trans (h.waiting r hr)
  selection c hc selection hselection := hle.trans (h.selection c hc selection hselection)

variable [DecidableEq τ] {service : Service} {outcomes : ℕ → Outcome} {s s' : State τ} {a : Label τ}

/-- What the helper starts with is what the request says. -/
theorem start_supported {env : HelperClient.Env} {sh : Shared} {r : Sending} {p : ℕ}
    (hcomputed : Computed env sh r) (hle : p ≤ r.version) {authorized : Bool} {received : ℕ}
    {file : Except ReadFailure Text} (pf : PF)
    (hread : ∀ networks, (start env file authorized (r.request.take received)).networks =
      some networks → networks ∈ sh.whitelists) :
    Supported (Since sh p) (start env file authorized (r.request.take received)) ∧
      Sets (Since sh r.version) pf (start env file authorized (r.request.take received)) := by
  obtain ⟨db, v4, v6, hdb, hdesired, hrequestable, hrequest⟩ := hcomputed.desired
  have hfits := hcomputed.fits
  rw [hrequest] at hfits hread ⊢
  rcases start_line hrequestable hfits authorized received with ⟨e, hstart, hplain⟩ | ⟨networks, hstart⟩
  · rw [hstart]
    exact ⟨trivial, hplain⟩
  · rw [hstart] at hread ⊢
    have hnetworks := hread networks rfl
    have hasked := asked_of_selected hdb hdesired hcomputed.read hnetworks
    exact ⟨⟨Since.closed hnetworks p, hasked.mono (fun _ _ hsince => hsince.of_le hle)⟩, hasked⟩

/-- What is settled stays so. -/
theorem Step.settled (hsound : Sound service s) (hstep : Step service outcomes s a s') {p : ℕ}
    (h : Settled s p) : Settled s' p := by
  have hgrows := hstep.grows
  have hsince : ∀ version S, Since s.toShared p version S → Since s'.toShared p version S :=
    fun _ _ hsince => hsince.mono hgrows
  have hclosed : ∀ work, s.work = some work → ∀ networks, work.networks = some networks →
      Closed (Since s'.toShared p) networks := fun work hwork networks hnetworks =>
    Since.closed (hgrows.whitelists networks ((hsound.work work hwork).read networks hnetworks)) p
  have hsupported : ∀ work, s.work = some work → Supported (Since s'.toShared p) work :=
    fun work hwork => (h.work work hwork).mono hsince (hclosed work hwork)
  have hheld : ∀ version, Since s'.toShared p version (HelperSteps.held s.pf version) :=
    fun version => hsince _ _ (h.held version)
  -- the tables change in a step of the helper only
  have htables : (∀ version, Since s'.toShared p version (HelperSteps.held s'.pf version)) ∧
      ∀ work, s'.work = some work → Supported (Since s'.toShared p) work := by
    rcases hstep.work_cases with ⟨hwork, hpf⟩ |
      ⟨r, authorized, received, file, hidle, hnext, -, hwork, hread, hpf⟩ |
      ⟨work, hwork, -, hwork', hpf⟩ | ⟨hwork, hpf⟩
    · rw [hwork, hpf]
      exact ⟨hheld, hsupported⟩
    · have hr := Line.mem_waiting_of_next hnext
      have hcomputed := (hsound.computed r (Line.mem_of_waiting hr)).mono hgrows
      rw [hwork, hpf]
      refine ⟨hheld, fun work hstart => ?_⟩
      cases hstart
      exact (start_supported hcomputed (h.waiting r hr) s.pf hread).1
    · have hnext := @Supported.next (Since s'.toShared p) service.helper.sha256.hexdigest outcomes work
        s.pf (hsupported work hwork) hheld
      rw [hwork', hpf]
      refine ⟨hnext.2, fun work' hwork'' => ?_⟩
      cases hwork''
      exact hnext.1
    · rw [hwork, hpf]
      exact ⟨hheld, fun work hnone => (by cases hnone)⟩
  refine ⟨h.version_le.trans hgrows.version_le, htables.1, htables.2, fun r hr => ?_,
    fun c hc selection hselection => ?_⟩
  · rcases hstep.line_cases with hline |
      ⟨c, sending, left, last_error, hc, hpoint, hline⟩ | ⟨result, hnext, -, hline, -⟩
    · rw [hline] at hr
      exact h.waiting r hr
    · -- a new request is for the selection of the call that holds the lock
      rw [hline, Line.waiting_submit, List.mem_append, List.mem_singleton] at hr
      rcases hr with hr | rfl
      · exact h.waiting r hr
      · exact h.selection c hc _ (by rw [hpoint]; rfl)
    · rw [hline] at hr
      exact h.waiting r (Line.mem_waiting_of_answer hr)
  · rcases hstep.selection hc hselection with ⟨c', hc', hsame⟩ | hnew
    · exact h.selection c' hc' selection hsame
    · rw [hnew]
      exact h.version_le

theorem served_write {client : RegisteredClient} {path : Claims.Path} {raw : Json} {moment : Moment}
    {result : ApplyResult} {db db' : DB} (hserved : Served service.server.store db)
    (h : Handler.write service.server client.toClientConfig db path raw moment = (.ok result, db')) :
    Served service.server.store db' := by
  rcases write_cases h with ⟨e, he, -⟩ | ⟨request, r, hread, -, -, rfl⟩
  · cases he
  · exact hserved.perform (a := .call (Server.request_call service.server client.toClientConfig request
      moment.now)) (read_request_ok hread).1

theorem Step.served (hserved : ∀ db ∈ s.history, Served service.server.store db)
    (hstep : Step service outcomes s a s') : ∀ db ∈ s'.history, Served service.server.store db := by
  have hdb : Served service.server.store s.db :=
    hserved s.db (List.mem_of_getElem? s.history_version)
  cases hstep with
  | write hidle hwrite => exact Shared.forall_mem_commit hserved (served_write hdb hwrite)
  | prune now hidle =>
    apply Shared.forall_mem_commit hserved
    exact hdb.perform (a := .prune now) trivial
  | advance hholder hadvance => exact hadvance.served hserved
  | _ => exact hserved

theorem Step.ordered (hsound : Sound service s) (hstep : Step service outcomes s a s') :
    s'.line.Ordered (fun r => r.version) := by
  rcases hstep.line_cases with hline | ⟨c, sending, left, last_error, hc, hpoint, hline⟩ |
    ⟨result, hnext, -, hline, -⟩
  · rw [hline]
    exact hsound.ordered
  · have hpointSound := (hsound.holder c hc).point
    rw [hpoint] at hpointSound
    rw [hline]
    exact hsound.ordered.submit hpointSound.1.newest
  · rw [hline]
    exact hsound.ordered

theorem Step.computed (hsound : Sound service s) (hstep : Step service outcomes s a s') :
    ∀ r ∈ s'.line.requests, Computed service.helper s'.toShared r := by
  intro r hr
  refine Computed.mono hstep.grows ?_
  rcases hstep.line_cases with hline | ⟨c, sending, left, last_error, hc, hpoint, hline⟩ |
    ⟨result, hnext, -, hline, -⟩
  · rw [hline] at hr
    exact hsound.computed r hr
  · have hpointSound := (hsound.holder c hc).point
    rw [hpoint] at hpointSound
    rw [hline, Line.requests_submit, List.mem_append, List.mem_singleton] at hr
    rcases hr with hr | rfl
    · exact hsound.computed r hr
    · exact hpointSound.2
  · rw [hline] at hr
    exact hsound.computed r hr

theorem Step.plain (hsound : Sound service s) (hstep : Step service outcomes s a s') :
    ∀ e, .error e ∈ s'.line.answers → PlainText (error_message e) := by
  intro e he
  rcases hstep.line_cases with hline | ⟨c, sending, left, last_error, hc, hpoint, hline⟩ |
    ⟨result, hnext, hwork, hline, -⟩
  · rw [hline] at he
    exact hsound.plain e he
  · rw [hline] at he
    exact hsound.plain e he
  · rw [hline, Line.answers_answer, List.mem_append, List.mem_singleton] at he
    rcases he with he | rfl
    · exact hsound.plain e he
    · obtain ⟨r, -, hsets⟩ := (hsound.work _ hwork).sets
      exact hsets

theorem Step.work_sound (hsound : Sound service s) (hstep : Step service outcomes s a s') :
    ∀ work, s'.work = some work → WorkSound s' work := by
  intro work' hwork'
  have hgrows := hstep.grows
  rcases hstep.work_cases with ⟨hwork, hpf⟩ |
    ⟨r, authorized, received, file, hidle, hnext, hline, hwork, hread, hpf⟩ |
    ⟨work, hwork, hline, hnext, hpf⟩ | ⟨hwork, hpf⟩
  · rw [hwork] at hwork'
    obtain ⟨⟨r, hr, hsets⟩, hread⟩ := hsound.work work' hwork'
    have hnext : s'.line.next = some r := by
      rcases hstep.line_cases with hline | ⟨c, sending, left, last_error, -, -, hline⟩ |
        ⟨result, hnext, -, -, hnone, -⟩
      · rwa [hline]
      · rw [hline]
        exact Line.next_submit hr sending
      · rw [hwork, hwork'] at hnone
        cases hnone
    refine ⟨⟨r, hnext, ?_⟩, fun networks hnetworks => hgrows.whitelists _ (hread networks hnetworks)⟩
    rw [hpf]
    exact hsets.mono (fun _ _ hsince => hsince.mono hgrows)
  · rw [hwork] at hwork'
    cases hwork'
    have hcomputed := (hsound.computed r (Line.mem_of_waiting (Line.mem_waiting_of_next hnext))).mono
      hgrows
    exact ⟨⟨r, by rw [hline]; exact hnext, (start_supported hcomputed le_rfl s'.pf hread).2⟩, hread⟩
  · rw [hnext] at hwork'
    cases hwork'
    obtain ⟨⟨r, hr, hsets⟩, hread⟩ := hsound.work work hwork
    refine ⟨⟨r, by rw [hline]; exact hr, ?_⟩, fun networks hnetworks =>
      hgrows.whitelists _ (hread networks (networks_next _ _ hnetworks))⟩
    rw [hpf]
    exact (hsets.mono (fun _ _ hsince => hsince.mono hgrows)).next
  · rw [hwork] at hwork'
    cases hwork'

theorem Step.holder_sound (hsound : Sound service s) (hstep : Step service outcomes s a s') :
    ∀ c, s'.holder = some c → HolderSound service s' c := by
  intro c' hc'
  have hgrows := hstep.grows
  rcases hstep.holder_cases hc' with ⟨hc, hline⟩ | ⟨hentered, haccepted⟩ | ⟨c, hc, hwritten, hadvance⟩
  · obtain ⟨hpoint, hplaced⟩ := hsound.holder c' hc
    exact ⟨hpoint.mono hgrows hline, fun w hw => ⟨(hplaced w hw).1.mono hgrows, (hplaced w hw).2⟩⟩
  · refine ⟨?_, fun w hw => ⟨?_, fun selection hselection => ?_⟩⟩
    · rw [hentered]
      exact trivial
    · have hphase := hsound.threads c'.thread
      rw [haccepted w hw] at hphase
      exact Placed.mono hgrows hphase
    · rw [hentered] at hselection
      cases hselection
  · obtain ⟨hpoint, hplaced⟩ := hsound.holder c hc
    refine ⟨hadvance.sound hsound.served hsound.computed hsound.plain hpoint, fun w hw => ?_⟩
    rw [hwritten] at hw
    refine ⟨(hplaced w hw).1.mono hgrows, fun selection hselection => ?_⟩
    rcases hadvance.selection hselection with hsame | hnew
    · exact (hplaced w hw).2 selection hsame
    · -- the write was stored before the call began
      rw [hnew]
      exact (hplaced w hw).1.le_version

/-- When the helper has replaced the tables for a request, they are settled. -/
theorem settled_of_answer (hsound : Sound service s) (hstep : Step service outcomes s a s')
    {r : Sending} {applied : Applied} {hnext : s.line.next.isSome}
    (hwork : s.work = some (.ended (.ok applied))) (hr : s.line.next = some r)
    (hline : s'.line = s.line.answer (.ok applied) hnext) (hwork' : s'.work = none)
    (hpf : s'.pf = s.pf) (hholder : s'.holder = s.holder) : Settled s' r.version := by
  have hgrows := hstep.grows
  obtain ⟨r', hr', hsets⟩ := (hsound.work _ hwork).sets
  rw [hr] at hr'
  cases hr'
  obtain ⟨db, -, -, hdb, -⟩ :=
    (hsound.computed r (Line.mem_of_waiting (Line.mem_waiting_of_next hr))).desired
  refine ⟨(Shared.le_version hdb).trans hgrows.version_le, fun version => ?_, fun work hsome => ?_,
    fun r' hr' => ?_, fun c hc selection hselection => ?_⟩
  · rw [hpf]
    exact (hsets version).mono hgrows
  · rw [hwork'] at hsome
    cases hsome
  · rw [hline] at hr'
    exact hsound.ordered.le_of_waiting hr r' (Line.mem_waiting_of_answer hr')
  · rw [hholder] at hc
    exact (hsound.holder c hc).point.version_le hselection hr

theorem Step.answered (hsound : Sound service s) (hstep : Step service outcomes s a s') :
    ∀ i r applied, s'.line.Answered i r (.ok applied) → Settled s' r.version := by
  intro i r applied hanswered
  rcases hstep.line_cases with hline | ⟨c, sending, left, last_error, -, -, hline⟩ |
    ⟨result, hnext, hwork, hline, hwork', hpf, hholder⟩
  · rw [hline] at hanswered
    exact hstep.settled hsound (hsound.answered i r applied hanswered)
  · rw [hline] at hanswered
    exact hstep.settled hsound (hsound.answered i r applied hanswered.of_submit)
  · rw [hline] at hanswered
    rcases hanswered.of_answer with hanswered | ⟨hr, hresult⟩
    · exact hstep.settled hsound (hsound.answered i r applied hanswered)
    · subst hresult
      exact settled_of_answer hsound hstep hwork hr hline hwork' hpf hholder

theorem PhaseSound.step (hsound : Sound service s) (hstep : Step service outcomes s a s')
    {phase : Phase} (h : PhaseSound service s phase) : PhaseSound service s' phase := by
  cases phase with
  | idle => exact trivial
  | accepted w => exact Placed.mono hstep.grows h
  | enforcing => exact trivial
  | ended w outcome =>
    cases outcome with
    | ok count => exact ⟨h.1.mono hstep.grows, hstep.settled hsound h.2⟩
    | error e => exact trivial

theorem phases_update {P : Phase → Prop} {threads : τ → Phase} (h : ∀ t, P (threads t)) {phase : Phase}
    (hphase : P phase) (t : τ) : ∀ t', P (Function.update threads t phase t') := by
  intro t'
  by_cases heq : t' = t
  · subst heq
    rwa [Function.update_self]
  · rw [Function.update_of_ne heq]
    exact h t'

theorem Step.threads_sound (hsound : Sound service s) (hstep : Step service outcomes s a s') :
    ∀ t, PhaseSound service s' (s'.threads t) := by
  have hkept : ∀ t, PhaseSound service s' (s.threads t) :=
    fun t => (hsound.threads t).step hsound hstep
  have hgrows := hstep.grows
  cases hstep with
  | @write t client path raw moment result db hidle hwrite =>
    refine @phases_update τ _ _ _ hkept (.accepted ⟨client, result, s.version + 1⟩) ?_ t
    refine ⟨s.version, path, raw, moment, s.db, db, rfl, hgrows.getElem? s.history_version, ?_, hwrite⟩
    change (s.history ++ [db])[s.version + 1]? = some db
    rw [← Shared.length_history, List.getElem?_concat_length]
  | enter hfree haccepted => exact @phases_update τ _ _ _ hkept .enforcing trivial _
  | enter_periodic hfree hidle => exact @phases_update τ _ _ _ hkept .enforcing trivial _
  | @leave c sending count hholder hpoint =>
    have hphase : ∀ written, c.written = written →
        PhaseSound service s (phase_after written (.ok count)) := by
      intro written hwritten
      obtain ⟨hpointSound, hplaced⟩ := hsound.holder c hholder
      rw [hpoint] at hpointSound hplaced
      cases written with
      | none => exact trivial
      | some w =>
        obtain ⟨⟨i, applied, hanswered⟩, -⟩ := hpointSound
        have hle := (hplaced w hwritten).2 _ rfl
        exact ⟨(hplaced w hwritten).1, (hsound.answered i sending applied hanswered).of_le hsound hle⟩
    have hleave : Step service outcomes s _ _ := Step.leave hholder hpoint
    exact phases_update hkept ((hphase _ rfl).step hsound hleave) _
  | @leave_raising c e hholder hpoint =>
    refine phases_update hkept ?_ _
    cases c.written <;> exact trivial
  | reply surroundings hended => exact @phases_update τ _ _ _ hkept .idle trivial _
  | _ => exact hkept

/-- **Every step keeps the invariants.** -/
theorem Step.sound (hsound : Sound service s) (hstep : Step service outcomes s a s') :
    Sound service s' where
  served := hstep.served hsound.served
  ordered := hstep.ordered hsound
  computed := hstep.computed hsound
  plain := hstep.plain hsound
  work := hstep.work_sound hsound
  holder := hstep.holder_sound hsound
  answered := hstep.answered hsound
  threads := hstep.threads_sound hsound

/-- A reply with status 200 comes after an enforcement that returned. -/
theorem ended_of_status {result : ApplyResult} {surroundings : Surroundings} {world : World}
    {client_id : Text} {outcome : Except Failed ℕ} {reply : Server.Response}
    (h : finish_response result (count_after surroundings world client_id outcome) = some reply)
    (hstatus : reply.status = 200) : ∃ count, outcome = .ok count := by
  cases outcome with
  | ok count => exact ⟨count, rfl⟩
  | error e =>
    exfalso
    cases e with
    | enforcement_error error =>
      cases h
      cases hstatus
    | database =>
      cases h
      cases hstatus
    | other => cases h

/-- Whatever a run has led to keeps the invariants, and for every write that was replied to with
status 200 the tables are settled. -/
theorem run_sound {labels : List (Label τ)} (hsound : Sound service s)
    (hrun : Run (Step service outcomes) s labels s') : Sound service s' ∧
      ∀ t w reply, .replied t w (some reply) ∈ labels → reply.status = 200 →
        Placed service s'.toShared w ∧ Settled s' w.position := by
  refine Run.invariant (P := fun labels s' => Sound service s' ∧
    ∀ t w reply, .replied t w (some reply) ∈ labels → reply.status = 200 →
      Placed service s'.toShared w ∧ Settled s' w.position) ?_ ?_ hrun
  · exact ⟨hsound, fun t w reply hmem => (by cases hmem)⟩
  · rintro labels s₁ a s₂ - ⟨hsound₁, hreplied⟩ hstep
    refine ⟨hstep.sound hsound₁, fun t w reply hmem hstatus => ?_⟩
    have hkept : Placed service s₁.toShared w ∧ Settled s₁ w.position →
        Placed service s₂.toShared w ∧ Settled s₂ w.position :=
      fun h => ⟨h.1.mono hstep.grows, hstep.settled hsound₁ h.2⟩
    rcases List.mem_append.mp hmem with hmem | hmem
    · exact hkept (hreplied t w reply hmem hstatus)
    · rw [List.mem_singleton] at hmem
      subst hmem
      -- the thread's enforcement had returned
      generalize hlabel : Label.replied t w (some reply) = label at hstep
      refine hkept ?_
      cases hstep with
      | @reply t' w' outcome surroundings hended =>
        obtain ⟨rfl, rfl, hresponse⟩ := Label.replied.inj hlabel
        obtain ⟨count, rfl⟩ := ended_of_status hresponse.symm hstatus
        have hphase := hsound₁.threads t
        rw [hended] at hphase
        exact hphase
      | _ => cases hlabel

end Invariants

/-! ## The order of the sets

The result for whole runs, from any store that requests were posted to and any tables. -/

section Main

variable {τ : Type} [DecidableEq τ]

/-- **No older set after a reply.** For every number of threads, every order of their steps and
those of the helper, every pattern of connections that break, of answers that come too late and of
calls of `pfctl` that fail, and for every whitelist file anybody reads: when `enforce` returns,
every request made so far has been handled; and after a reply with status 200 to a write each
table holds, in every state, the addresses selected from a state of the store that already
included the write, without those on the whitelists the server and the helper read for them and,
after rollbacks, the helper read then. -/
theorem no_older_set (service : Service) (outcomes : ℕ → Outcome) (db : DB) (pf : PF)
    (labels : List (Label τ)) (s : State τ) (hserved : Served service.server.store db)
    (hrun : Run (Step service outcomes) (State.initial db pf) labels s) :
    (∀ t count s', Step service outcomes s (.returned t count) s' →
      ∀ (i : ℕ) (r : Sending), s'.line.requests[i]? = some r →
        ∃ result, s'.line.answers[i]? = some result) ∧
    ∀ t w reply, .replied t w (some reply) ∈ labels → reply.status = 200 →
      Placed service s.toShared w ∧
        ∀ version, Since s.toShared w.position version {a | InTable (s.pf.tables version) a} := by
  obtain ⟨hsound, hreplied⟩ := run_sound (Sound.initial hserved pf) hrun
  refine ⟨fun t count s' hstep i r hr => ?_, fun t w reply hmem hstatus => ?_⟩
  · generalize hlabel : Label.returned t count = label at hstep
    cases hstep with
    | @leave c sending count' hholder hpoint =>
      have hpointSound := (hsound.holder c hholder).point
      rw [hpoint] at hpointSound
      obtain ⟨result, -, hresult⟩ :=
        (Line.waiting_eq_nil_iff s.line).mp hpointSound.waiting i r hr
      exact ⟨result, hresult⟩
    | _ => cases hlabel
  · obtain ⟨hplaced, hsettled⟩ := hreplied t w reply hmem hstatus
    exact ⟨hplaced, hsettled.held⟩

end Main

/-! ## A request that comes too late

Thread 0 writes a ban, and the answer to its request does not come in time: it gives up and replies
503. Thread 1 writes another ban. Only then the helper carries out the first request, which was
computed from the older state of the store; and then thread 1 enforces and replies 200. -/

def sample_undisturbed : Moment := { sample_moment with
  surroundings := { sample_surroundings with exchanges := List.replicate 3 sample_exchange } }

def sample_registered : RegisteredClient :=
  { id := "a".toList, allowed_jails := ["sshd".toList], cert_sha256 := ["f1".toList] }

def sample_empty : World := ⟨DB.initial, ⟨fun _ => [], []⟩, none⟩

/-- A ban as it is written. -/
def sample_write (db : DB) (seq : ℕ) (ip : String) : Except Server.Refused ApplyResult × DB :=
  Handler.write sample_service.server sample_registered.toClientConfig db .events
    (.obj [("events".toList, .arr [sample_event seq ip.toList])]) sample_undisturbed

theorem sample_write_ok {db : DB} {seq : ℕ} {ip : String}
    (h : (sample_write db seq ip).1.toOption.isSome = true) :
    ∃ r, sample_write db seq ip = (.ok r, (sample_write db seq ip).2) := by
  rcases hwrite : sample_write db seq ip with ⟨result, db'⟩
  rw [hwrite] at h
  cases result with
  | error e => cases h
  | ok r => exact ⟨r, rfl⟩

/-- The store after the first ban. -/
def sample_first_db : DB := (sample_write DB.initial 1 "192.0.2.7").2

/-- What is desired then, and the request for it. -/
def sample_desired : List Text × List Text := (["192.0.2.7".toList], [])

def sample_line : Text := encode_request sample_service.helper ["192.0.2.7".toList] []

/-- The store when thread 0 has given up. -/
def sample_failed_db : DB :=
  Store.record_enforcement_failure (Store.record_enforcement_attempt sample_first_db
    (desired_digest sample_service.helper sample_desired) 1)
    (desired_digest sample_service.helper sample_desired)
    (failure_message (too_many "PF helper unavailable".toList)) 1

/-- The store after the second ban, and the tables after the late request. -/
def sample_late : World where
  db := (sample_write sample_failed_db 2 "192.0.2.8").2
  pf := (carry_out sample_service.helper sample_undisturbed.surroundings.outcomes
    sample_undisturbed.surroundings.helper_file true (sample_line.take 1000) sample_empty.pf).2
  last_index := none

theorem no_older_set_sample : ∃ (labels labels' : List (Label ℕ)) (s s' : State ℕ) (w w' : Written)
    (reply reply' : Server.Response),
    Run (Step sample_service sample_undisturbed.surroundings.outcomes)
      (State.initial DB.initial sample_empty.pf) labels s ∧
    .replied 0 w (some reply) ∈ labels ∧ reply.status = 503 ∧ s.line.waiting ≠ [] ∧
    Run (Step sample_service sample_undisturbed.surroundings.outcomes) s labels' s' ∧
    .replied 1 w' (some reply') ∈ labels' ∧ reply'.status = 200 ∧
    Placed sample_service s'.toShared w' ∧
    ∀ version, Since s'.toShared w'.position version {a | InTable (s'.pf.tables version) a} := by
  obtain ⟨r₀, hwrite₀⟩ := @sample_write_ok DB.initial 1 "192.0.2.7" (by decide +kernel)
  obtain ⟨r₁, hwrite₁⟩ := @sample_write_ok sample_failed_db 2 "192.0.2.8" (by decide +kernel)
  have hselect : Store.effective_ips sample_first_db 1 = some sample_desired := by decide +kernel
  have hprepare : prepare sample_service.helper sample_undisturbed.surroundings.server_file
      sample_desired = .ok (sample_networks, sample_line) := by decide +kernel
  have hcount : count_after sample_undisturbed.surroundings (enforce sample_service.helper
      sample_undisturbed.surroundings sample_late).2 "a".toList (enforce sample_service.helper
        sample_undisturbed.surroundings sample_late).1 = .ok 2 := by decide +kernel
  -- the first ban, its request and the answer that does not come
  have hfirst : Step sample_service sample_undisturbed.surroundings.outcomes
      (State.initial DB.initial sample_empty.pf) .silent _ := Step.write (t := 0) rfl hwrite₀
  obtain ⟨labels₀, s₀, sending, hrun₀, hrequest, hline, hwork, hpf, hholder, hindex, hdb, hthreads⟩ :=
    @timed_out_run ℕ _ sample_service sample_undisturbed.surroundings.outcomes
      { (State.initial DB.initial sample_empty.pf : State ℕ) with
        toShared := (State.initial DB.initial sample_empty.pf : State ℕ).commit sample_first_db
        threads := Function.update (fun _ => .idle) 0 (.accepted ⟨sample_registered, r₀, 1⟩) }
      0 ⟨sample_registered, r₀, 1⟩ rfl rfl 1 sample_desired _ _ _ hselect hprepare 1
  have hreply₀ : Step sample_service sample_undisturbed.surroundings.outcomes s₀ _ _ :=
    Step.reply (t := 0) sample_undisturbed.surroundings (by
      rw [hthreads]
      exact Function.update_self _ _ _)
  -- the second ban is stored while the first request still waits
  have hsecond : Step sample_service sample_undisturbed.surroundings.outcomes
      { s₀ with threads := Function.update s₀.threads 0 .idle } .silent _ :=
    Step.write (t := 1) (by
      dsimp only
      rw [hthreads]
      rfl) (by
      dsimp only
      rw [hdb]
      exact hwrite₁)
  have hrun := (((Run.single hfirst).append hrun₀).snoc hreply₀).snoc hsecond
  generalize hs : ({ s₀ with
      toShared := s₀.commit (sample_write sample_failed_db 2 "192.0.2.8").2
      threads := Function.update (Function.update s₀.threads 0 .idle) 1
        (.accepted ⟨sample_registered, r₁, s₀.version + 1⟩) } : State ℕ) = s at hrun
  -- the helper takes it up only now
  obtain ⟨late, s₁, hlate, halone, hthreads₁, hholder₁, -⟩ := @late_run ℕ _ sample_service
    sample_undisturbed.surroundings.outcomes s Line.empty sending (by subst hs; exact hwork) rfl
    (by subst hs; exact hline) sample_exchange sample_undisturbed.surroundings.helper_file
  have hworld : (⟨s.db, (carry_out sample_service.helper sample_undisturbed.surroundings.outcomes
      sample_undisturbed.surroundings.helper_file sample_exchange.authorized
      (sending.request.take sample_exchange.received) s.pf).2, s.last_index⟩ : World) = sample_late := by
    subst hs
    dsimp only
    rw [hrequest, hpf, show (s₀.commit (sample_write sample_failed_db 2 "192.0.2.8").2).last_index =
      none from hindex]
    rfl
  rw [hworld] at halone
  -- and the second thread enforces what is desired by then
  obtain ⟨enforced, s₂, henforced, halone₂, -, hended⟩ := @enforce_run ℕ _ sample_service s₁ sample_late
    1 ⟨sample_registered, r₁, s₀.version + 1⟩ halone (by rw [hholder₁]; subst hs; exact hholder) (by
      rw [hthreads₁, ← hs]
      dsimp only
      rw [Function.update_self]) sample_undisturbed.surroundings rfl
  have hreply₁ : Step sample_service sample_undisturbed.surroundings.outcomes s₂ _ _ :=
    Step.reply sample_undisturbed.surroundings hended
  rw [show (⟨s₂.db, s₂.pf, s₂.last_index⟩ : World) = (enforce sample_service.helper
      sample_undisturbed.surroundings sample_late).2 by
    rw [halone₂.db, halone₂.pf, halone₂.last_index],
    show (⟨sample_registered, r₁, s₀.version + 1⟩ : Written).client.id = "a".toList from rfl, hcount]
    at hreply₁
  have hafter := (hlate.append henforced).snoc hreply₁
  obtain ⟨hplaced, hsince⟩ := (no_older_set sample_service _ DB.initial sample_empty.pf _ _
    (Served.initial _) (hrun.append hafter)).2 1 _ _ (List.mem_append_right _
      (List.mem_append_right _ (List.mem_singleton.mpr rfl))) rfl
  have hwaiting : s.line.waiting ≠ [] := by
    rw [← hs]
    change s₀.line.waiting ≠ []
    rw [hline, Line.waiting_submit]
    exact List.append_ne_nil_of_right_ne_nil _ (List.cons_ne_nil _ _)
  exact ⟨_, _, s, _, _, _, _, _, hrun, List.mem_append_left _ (List.mem_append_right _
    (List.mem_singleton.mpr rfl)), rfl, hwaiting, hafter, List.mem_append_right _
    (List.mem_singleton.mpr rfl), rfl, hplaced, hsince⟩

end F2bguard.Interleaving
