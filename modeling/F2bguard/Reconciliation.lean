/-
Fail2Ban and the active claims of its sender.

Fail2Ban holds the bans. It calls a hook for a ban or its release, one after the other in each jail,
but a jail that is stopped or reloaded loses its bans without hooks, and hooks fail. So a timer runs
snapshots: they read the last number, ask jail by jail while hooks go on, and are refused when a
number was allocated meanwhile. Hooks are the writes of `Redo`, and what a snapshot enumerates is a
checkpoint.

In step with Fail2Ban (`Agreed`) the claims stay so, whatever snapshots and hooks do to each other,
until a hook is dropped or bans change without hooks (`agreed_step`). A snapshot brings them in step
when no hook ran silently since it read its number (`bans_reconciled`): one that only repeats the
claims allocates no number and is not noticed.
-/
import F2bguard.Commands
import F2bguard.Fence
import F2bguard.Redo

set_option autoImplicit false

namespace F2bguard.Reconciliation

open F2bguard.PyText F2bguard.PyJson F2bguard.Uuid F2bguard.Runs F2bguard.Redo
open F2bguard.Sender (SenderConfig SenderError EventPayload SnapshotPayload SnapshotCall
  EnumeratedClaim PermanentJail Completed Hook Phase CommandError Asked Ticket permanent
  canonical_ip check_enqueue actionban actionunban is_active enumerate_jail)

/-! ## The system

The state of Fail2Ban is what its tickets say; for the sender only the bans for ever matter, but a
ban for a limited time may become one. Hooks wait in a list, and a jail runs its own in order
while those of different jails may overtake each other. A snapshot command is in one of the phases
of `Commands`. Its transaction is a step, and its call comes before it as a step of its own, as in
`SenderSteps`. -/

/-- The tickets of Fail2Ban with their bantimes, the hooks it has not finished, the `snapshot`
commands and the rest of the sender. -/
structure State (τ : Type) where
  bans : Text × Text → Option ℤ
  hooks : List Hook
  phases : τ → Phase
  sender : Sender.State

/-- Any bans, no hook and no command under way, and an empty outbox: a sender that is installed
beside a Fail2Ban that has been running. -/
def State.initial {τ : Type} (bans : Text × Text → Option ℤ) : State τ :=
  ⟨bans, [], fun _ => .ended (.ok ()), Sender.State.initial⟩

/-- How a hook ends. -/
inductive Outcome
  /-- it did not get as far as its transaction -/
  | lost
  | refused (message : Text)
  | skipped
  | called (now : ℚ) (ban_uuid event_uuid : Uuid4) (result : Except SenderError (Option EventPayload))

inductive Label (τ : Type)
  | ban (jail ip : Text) (bantime : ℤ)
  | unban (jail ip : Text)
  | drift
  | hook (h : Hook) (outcome : Outcome)
  | start (t : τ)
  | observe (t : τ)
  | ask (t : τ)
  | call (t : τ) (claims : List EnumeratedClaim) (observed : ℕ)
  | written (t : τ) (call : SnapshotCall) (now : ℚ) (snapshot_uuid : Uuid4)
      (result : Except SenderError SnapshotPayload)
  | stop (t : τ)
  | sender (a : Sender.Label)

/-- What a step is for the sender. -/
def Label.of_sender {τ : Type} : Label τ → Option Sender.Label
  | .hook h (.called now ban_uuid event_uuid result) =>
      some (.enqueue h.op.text h.jail h.ip now ban_uuid event_uuid result)
  | .call _ claims observed => some (.begin_snapshot claims (some observed))
  | .written _ c now snapshot_uuid result => some (.commit c now snapshot_uuid result)
  | .sender a => some a
  | _ => none

/-- Fail2Ban's answer for a jail: its tickets, a line for each. Which addresses are listed with
`-1` is what it holds at that moment; how it words the rest of the lines is left open. -/
def Answers (bans : Text × Text → Option ℤ) (jail : Text) (completed : Completed) : Prop :=
  ∃ tickets, (strip completed.stdout = [] ∧ tickets = [] ∨ strip completed.stdout ≠ [] ∧
      List.Forall₂ Ticket (splitlines completed.stdout) tickets) ∧
    ∀ ip, ip ∈ permanent tickets ↔ bans (jail, ip) = some (-1)

/-- The steps that are no call of `enqueue` or `enqueue_snapshot`. -/
def Other : Sender.Label → Prop
  | .enqueue .. => False
  | .begin_snapshot .. => False
  | .commit .. => False
  | _ => True

section Steps

variable (env : Sender.Env) (config : SenderConfig)

/-- A hook runs. It may be lost before its transaction, be refused by `check_enqueue`, have
nothing to do, or call the store; the result of the call may again be an error. -/
inductive HookRun (s : Sender.State) (h : Hook) : Outcome → Sender.State → Prop
  | lost : HookRun s h .lost s
  | refused {message : Text} (hcheck : check_enqueue config h.op h.jail h.bantime = .error message) :
      HookRun s h (.refused message) s
  | skipped (hcheck : check_enqueue config h.op h.jail h.bantime = .ok false) : HookRun s h .skipped s
  | called {now : ℚ} {ban_uuid event_uuid : Uuid4} {result : Except SenderError (Option EventPayload)}
      {s' : Sender.State} (hcheck : check_enqueue config h.op h.jail h.bantime = .ok true)
      (hcall : Sender.Step env s
        (.enqueue h.op.text h.jail h.ip now ban_uuid event_uuid result) s') :
      HookRun s h (.called now ban_uuid event_uuid result) s'

variable {τ : Type} [DecidableEq τ]

def State.goto (s : State τ) (t : τ) (phase : Phase) : State τ :=
  { s with phases := Function.update s.phases t phase }

theorem phases_goto_self (s : State τ) (t : τ) (phase : Phase) : (s.goto t phase).phases t = phase :=
  Function.update_self _ _ _

theorem phases_goto_other (s : State τ) {t t' : τ} (h : t ≠ t') (phase : Phase) :
    (s.goto t' phase).phases t = s.phases t := Function.update_of_ne h _ _

inductive Step (s : State τ) : Label τ → State τ → Prop
  /-- Fail2Ban does not shorten a ban. -/
  | ban {jail ip ip' text : Text} {bantime : ℤ} (hip : canonical_ip ip = .ok ip')
      (htext : int_decimal text = some bantime)
      (hlonger : bantime = -1 ∨ s.bans (jail, ip') ≠ some (-1)) :
      Step s (.ban jail ip' bantime) { s with
        bans := Function.update s.bans (jail, ip') (some bantime)
        hooks := s.hooks ++ [actionban jail ip text] }
  | unban {jail ip ip' : Text} (hip : canonical_ip ip = .ok ip') :
      Step s (.unban jail ip') { s with
        bans := Function.update s.bans (jail, ip') none
        hooks := s.hooks ++ [actionunban jail ip] }
  /-- `actionflush`, a ban that is prolonged or restored: there is no hook. -/
  | drift (bans : Text × Text → Option ℤ)
      (hquiet : ∀ h ∈ s.hooks, ∀ pair, h.pair = some pair → bans pair = s.bans pair) :
      Step s .drift { s with bans }
  /-- A jail runs its hooks in order. -/
  | hook {before after : List Hook} {h : Hook} {outcome : Outcome} {sender : Sender.State}
      (hhooks : s.hooks = before ++ h :: after) (hfirst : ∀ b ∈ before, b.jail ≠ h.jail)
      (hrun : HookRun env config s.sender h outcome sender) :
      Step s (.hook h outcome) { s with hooks := before ++ after, sender }
  | start {t : τ} {result : Except CommandError Unit} (hphase : s.phases t = .ended result) :
      Step s (.start t) (s.goto t .started)
  | observe {t : τ} {left : ℕ} (hphase : s.phases t = .observing left) :
      Step s (.observe t) (s.goto t (.observe config s.sender.db left))
  | ask {t : τ} {left observed : ℕ} {jail : PermanentJail} {rest : List PermanentJail}
      {claims : List EnumeratedClaim} {completed : Option Completed}
      (hphase : s.phases t = .asking left observed (jail :: rest) claims)
      (hanswer : ∀ c, completed = some c → c.returncode = 0 → Answers s.bans jail.name c) :
      Step s (.ask t) (s.goto t (.ask left observed jail rest claims completed))
  | call {t : τ} {left observed : ℕ} {claims : List EnumeratedClaim} {sender : Sender.State}
      (hphase : s.phases t = .asking left observed [] claims)
      (hcall : Sender.Step env s.sender (.begin_snapshot claims (some observed)) sender) :
      Step s (.call t claims observed) { s.goto t (.writing left observed claims) with sender }
  | written {t : τ} {left observed : ℕ} {claims : List EnumeratedClaim} {call : SnapshotCall} {now : ℚ}
      {snapshot_uuid : Uuid4} {result : Except SenderError SnapshotPayload} {sender : Sender.State}
      (hphase : s.phases t = .writing left observed claims) (hclaims : call.claims = claims)
      (hexpected : call.expected_seq = some observed)
      (hcommit : Sender.Step env s.sender (.commit call now snapshot_uuid result) sender) :
      Step s (.written t call now snapshot_uuid result)
        { s.goto t (.written left result) with sender }
  /-- The command raised or was killed. -/
  | stop (t : τ) (e : CommandError) : Step s (.stop t) (s.goto t (.ended (.error e)))
  | sender {a : Sender.Label} {sender : Sender.State} (hother : Other a)
      (h : Sender.Step env s.sender a sender) : Step s (.sender a) { s with sender }

end Steps

/-! ## One claim

A claim is a pair of a jail and an address, and nothing that happens to other pairs matters for
it. So the system is looked at through one pair at a time: is it banned, is it active, and which
hooks for it have not run. To such a view every step is one of six (`Effect`). -/

section Claim

variable {τ : Type}

/-- Fail2Ban has banned the address for ever. -/
def State.banned (s : State τ) (pair : Text × Text) : Bool := decide (s.bans pair = some (-1))

def State.active (s : State τ) (pair : Text × Text) : Bool := is_active s.sender.db pair

/-- The hooks for the claim that have not run. -/
def State.outstanding (s : State τ) (pair : Text × Text) : List Hook :=
  s.hooks.filter (fun h => h.pair = some pair)

def listed (claims : List EnumeratedClaim) (pair : Text × Text) : Bool :=
  decide (pair ∈ claims.map Sender.EnumeratedClaim.pair)

/-- The hook is no temporary ban. -/
def Decides (h : Hook) : Prop := h.write true = h.write false

theorem write_absorbing (h : Hook) : Absorbing h.write := by
  unfold Hook.write
  cases h.op with
  | unban => exact .inr ⟨false, fun _ => rfl⟩
  | ban =>
    dsimp only
    split
    · exact .inr ⟨true, fun _ => rfl⟩
    · exact .inl (fun _ => rfl)

theorem write_of_not_decides {h : Hook} (hdecides : ¬ Decides h) (active : Bool) :
    h.write active = active := by
  rcases write_absorbing h with hid | ⟨c, hconst⟩
  · exact hid active
  · exact absurd ((hconst true).trans (hconst false).symm) hdecides

/-- The hook has written a payload, so that the number has grown. -/
def Outcome.Recorded : Outcome → Prop
  | .called _ _ _ (.ok (some _)) => True
  | _ => False

/-- The hook did not do what it was called for. A hook that had nothing to do has not failed. -/
def Outcome.Failed : Outcome → Prop
  | .lost => True
  | .refused _ => True
  | .called _ _ _ (.error _) => True
  | _ => False

/-- A hook for a configured jail ends without an event. -/
inductive Silent (config : SenderConfig) : Label τ → Prop
  | hook {h : Hook} {outcome : Outcome} (hjail : h.jail ∈ config.jail_names) (hdecides : Decides h)
      (hsilent : ¬ outcome.Recorded) : Silent config (.hook h outcome)

/-- A hook for a configured jail fails. -/
inductive Drops (config : SenderConfig) : Label τ → Prop
  | hook {h : Hook} {outcome : Outcome} (hjail : h.jail ∈ config.jail_names) (hdecides : Decides h)
      (hfailed : outcome.Failed) : Drops config (.hook h outcome)

/-- The claims a command has read, the number it read before, and the jails it has not asked. -/
inductive Reads : Phase → ℕ → List PermanentJail → List EnumeratedClaim → Prop
  | asking (left observed : ℕ) (rest : List PermanentJail) (claims : List EnumeratedClaim) :
      Reads (.asking left observed rest claims) observed rest claims
  | writing (left observed : ℕ) (claims : List EnumeratedClaim) :
      Reads (.writing left observed claims) observed [] claims

/-- What a step does to one claim. -/
inductive Effect (s : State τ) (a : Label τ) (s' : State τ) (pair : Text × Text) : Prop
  | quiet (hbanned : s'.banned pair = s.banned pair) (hactive : s'.active pair = s.active pair)
      (hhooks : s'.outstanding pair = s.outstanding pair)
  /-- Fail2Ban bans or releases the address. -/
  | write (h : Hook) (hbanned : s'.banned pair = h.write (s.banned pair))
      (hactive : s'.active pair = s.active pair)
      (hhooks : s'.outstanding pair = s.outstanding pair ++ [h])
  | drift (hlabel : a = .drift) (hactive : s'.active pair = s.active pair)
      (hnone : s'.outstanding pair = [])
  /-- A hook did what it was called for, or there was nothing to do. -/
  | seen (h : Hook) (outcome : Outcome) (hlabel : a = .hook h outcome) (hpair : h.pair = some pair)
      (hbanned : s'.banned pair = s.banned pair)
      (hactive : s'.active pair = h.write (s.active pair))
      (hhooks : s.outstanding pair = h :: s'.outstanding pair)
  | dropped (h : Hook) (outcome : Outcome) (hlabel : a = .hook h outcome) (hpair : h.pair = some pair)
      (hdecides : Decides h) (hfailed : outcome.Failed) (hbanned : s'.banned pair = s.banned pair)
      (hactive : s'.active pair = s.active pair)
      (hhooks : s.outstanding pair = h :: s'.outstanding pair)
  /-- A snapshot replaces the claims. -/
  | replaced (t : τ) (observed : ℕ) (claims : List EnumeratedClaim)
      (hreads : Reads (s.phases t) observed [] claims) (hcurrent : observed = s.sender.db.seq)
      (hbanned : s'.banned pair = s.banned pair) (hactive : s'.active pair = listed claims pair)
      (hhooks : s'.outstanding pair = s.outstanding pair)

end Claim

section Invariant

variable {τ : Type} [DecidableEq τ] {env : Sender.Env} {config : SenderConfig} {s s' : State τ}
  {a : Label τ}

theorem sender_part (h : Step env config s a s') :
    (a.of_sender = none ∧ s'.sender = s.sender) ∨
      ∃ b, a.of_sender = some b ∧ Sender.Step env s.sender b s'.sender := by
  cases h with
  | hook hhooks hfirst hrun =>
    cases hrun with
    | called hcheck hcall => exact .inr ⟨_, rfl, hcall⟩
    | _ => exact .inl ⟨rfl, rfl⟩
  | call hphase hcall => exact .inr ⟨_, rfl, hcall⟩
  | written hphase hclaims hexpected hcommit => exact .inr ⟨_, rfl, hcommit⟩
  | sender hother h => exact .inr ⟨_, rfl, h⟩
  | _ => exact .inl ⟨rfl, rfl⟩

/-- What holds in every state. -/
structure Sound (env : Sender.Env) (config : SenderConfig) (s : State τ) : Prop where
  sender : ∃ log delivered, Sender.Sound env log delivered s.sender
  reads : ∀ t observed rest claims, Reads (s.phases t) observed rest claims →
    observed ≤ s.sender.db.seq ∧ Asked config rest claims
  /-- A hook that has not run agrees with the ban, unless another one for the claim comes later. -/
  closed : ∀ pair, Closed Hook.write (s.banned pair) (s.outstanding pair)

omit [DecidableEq τ] in
theorem Sound.initial (env : Sender.Env) (config : SenderConfig) (bans : Text × Text → Option ℤ) :
    Sound env config (State.initial bans : State τ) where
  sender := ⟨[], [], Sender.sound_initial env⟩
  reads t observed rest claims h := by cases h
  closed pair := Closed.nil _

/-- The payload a step writes to the outbox. -/
def Label.issued {τ : Type} (a : Label τ) : Option Sender.Payload := a.of_sender.bind Sender.Label.issued

/-- The number grows with each payload, and without one the claims stay. -/
theorem seq_step (hsound : Sound env config s) (h : Step env config s a s') :
    s'.sender.db.seq = s.sender.db.seq + a.issued.toList.length ∧
      (a.issued = none → ∀ pair, s'.active pair = s.active pair) := by
  obtain ⟨log, delivered, hsender⟩ := hsound.sender
  rcases sender_part h with ⟨hnone, hsame⟩ | ⟨b, hb, hstep⟩
  · rw [Label.issued, hnone, hsame]
    refine ⟨rfl, fun _ pair => ?_⟩
    rw [State.active, State.active, hsame]
  · rw [Label.issued, hb, Option.bind_some]
    have hnext := (Sender.sound_step hsender hstep).seq_eq_length
    rw [List.length_append, ← hsender.seq_eq_length] at hnext
    refine ⟨hnext, fun hnone pair => ?_⟩
    rw [State.active, State.active, is_active, is_active, Sender.claim_of, Sender.claim_of,
      Sender.claims_of_not_issued hsender hstep hnone]

/-! ## What a step does

One statement for the whole of `Step`: its effect on a pair. What follows is proved about the six
effects and looks at the kinds of steps no more. -/

theorem pair_actionban {jail ip ip' text : Text} (hip : canonical_ip ip = .ok ip') :
    (actionban jail ip text).pair = some (jail, ip') := by
  rw [Hook.pair, show (actionban jail ip text).ip = ip from rfl, hip]
  rfl

theorem pair_actionunban {jail ip ip' : Text} (hip : canonical_ip ip = .ok ip') :
    (actionunban jail ip).pair = some (jail, ip') := by
  rw [Hook.pair, show (actionunban jail ip).ip = ip from rfl, hip]
  rfl

theorem jail_of_pair {h : Hook} {pair : Text × Text} (hpair : h.pair = some pair) :
    h.jail = pair.1 := by
  obtain ⟨ip, -, rfl⟩ := Option.map_eq_some_iff.mp hpair
  rfl

omit [DecidableEq τ] in
/-- Fail2Ban calls a hook for what it does. -/
theorem effect_of_hooked {bans : Text × Text → Option ℤ} {h : Hook} {changed : Text × Text}
    (hpair : h.pair = some changed) {value : Option ℤ}
    (hbans : bans = Function.update s.bans changed value)
    (hwrite : decide (value = some (-1)) = h.write (s.banned changed)) (pair : Text × Text) :
    Effect s a { s with bans, hooks := s.hooks ++ [h] } pair := by
  by_cases hsame : changed = pair
  · subst hsame
    refine .write h ?_ rfl ?_
    · change decide (bans changed = some (-1)) = _
      rw [← hwrite, hbans, Function.update_self]
    · rw [State.outstanding, List.filter_append, List.filter_cons_of_pos (by simpa using hpair)]
      rfl
  · refine .quiet ?_ rfl ?_
    · change decide (bans pair = some (-1)) = _
      rw [hbans, Function.update_of_ne (fun h => hsame h.symm)]
      rfl
    · have hother : h.pair ≠ some pair := by
        rw [hpair, ne_eq, Option.some.injEq]
        exact hsame
      rw [State.outstanding, List.filter_append, List.filter_cons_of_neg (by simpa using hother),
        List.filter_nil, List.append_nil]
      rfl

/-- A hook that runs writes to its claim, unless it fails. -/
theorem hook_active {sender sender' : Sender.State} {h : Hook} {outcome : Outcome}
    (hvalid : Sender.ClaimsValid sender.db) (hrun : HookRun env config sender h outcome sender')
    (pair : Text × Text) : is_active sender'.db pair =
        (if h.pair = some pair then h.write (is_active sender.db pair) else is_active sender.db pair) ∨
      (outcome.Failed ∧ is_active sender'.db pair = is_active sender.db pair) := by
  cases hrun with
  | lost => exact .inr ⟨trivial, rfl⟩
  | refused hcheck => exact .inr ⟨trivial, rfl⟩
  | skipped hcheck =>
    refine .inl ?_
    rw [Sender.check_enqueue_false hcheck, ite_self]
  | @called now ban_uuid event_uuid result _ hcheck hcall =>
    cases hcall with
    | @enqueue _ _ _ _ _ _ _ db hcall =>
      rcases Sender.enqueue_outcome hvalid hcall with ⟨e, rfl, rfl⟩ | ⟨op, ip, hop, -, hip, -, hout⟩
      · exact .inr ⟨trivial, rfl⟩
      · obtain rfl := Sender.op_text_injective hop
        have hpair : h.pair = some (h.jail, ip) := by
          rw [Hook.pair, hip]
          rfl
        rw [hpair, Sender.check_enqueue_true hcheck]
        cases hout with
        | refused e => exact .inr ⟨trivial, rfl⟩
        | repeated hrepeated =>
          refine .inl ?_
          split
          · rename_i hsame
            rw [← Option.some.inj hsame]
            exact hrepeated
          · rfl
        | recorded hrecorded =>
          refine .inl ?_
          simp only [Option.some.injEq]
          rw [is_active, hrecorded.claims]
          split
          · rfl
          · rfl

omit [DecidableEq τ] in
theorem effect_of_hook {before after : List Hook} {h : Hook} {outcome : Outcome}
    {sender : Sender.State} (hsound : Sound env config s) (hhooks : s.hooks = before ++ h :: after)
    (hfirst : ∀ b ∈ before, b.jail ≠ h.jail) (hrun : HookRun env config s.sender h outcome sender)
    (pair : Text × Text) :
    Effect s (.hook h outcome) { s with hooks := before ++ after, sender } pair := by
  obtain ⟨log, delivered, hsender⟩ := hsound.sender
  have hactive := hook_active hsender.claims hrun pair
  by_cases hpair : h.pair = some pair
  · -- it is the oldest hook for the claim
    have hbefore : before.filter (fun b => b.pair = some pair) = [] := by
      rw [List.filter_eq_nil_iff]
      intro b hb hsame
      rw [decide_eq_true_eq] at hsame
      exact hfirst b hb ((jail_of_pair hsame).trans (jail_of_pair hpair).symm)
    have houtstanding : s.outstanding pair = h :: (before ++ after).filter (fun b => b.pair = some pair) := by
      rw [State.outstanding, hhooks, List.filter_append, List.filter_append, hbefore, List.nil_append,
        List.nil_append, List.filter_cons_of_pos (by simpa using hpair)]
    rw [if_pos hpair] at hactive
    by_cases hdecides : Decides h
    · rcases hactive with hwritten | ⟨hfailed, hsame⟩
      · exact .seen h outcome rfl hpair rfl hwritten houtstanding
      · exact .dropped h outcome rfl hpair hdecides hfailed rfl hsame houtstanding
    · refine .seen h outcome rfl hpair rfl ?_ houtstanding
      rw [write_of_not_decides hdecides]
      rw [write_of_not_decides hdecides, or_iff_left_of_imp And.right] at hactive
      exact hactive
  · rw [if_neg hpair, or_iff_left_of_imp And.right] at hactive
    refine .quiet rfl hactive ?_
    rw [State.outstanding, State.outstanding, hhooks, List.filter_append, List.filter_append,
      List.filter_cons_of_neg (by rwa [decide_eq_true_eq])]

omit [DecidableEq τ] in
/-- A snapshot that is written was read at the last number, and its claims are the active ones. -/
theorem written_active {call : SnapshotCall} {now : ℚ} {snapshot_uuid : Uuid4} {observed : ℕ}
    {result : Except SenderError SnapshotPayload} {sender : Sender.State}
    (hsound : Sound env config s) (hexpected : call.expected_seq = some observed)
    (hcommit : Sender.Step env s.sender (.commit call now snapshot_uuid result) sender) :
    (∃ e, result = .error e ∧ sender.db = s.sender.db) ∨ observed = s.sender.db.seq ∧
      ∀ pair, is_active sender.db pair = listed call.claims pair := by
  obtain ⟨log, delivered, hsender⟩ := hsound.sender
  cases hcommit with
  | @commit before after _ _ _ _ db hcalls hrest hcommit =>
    have hcall : call.Sound := hsender.calls call (by rw [hcalls]; simp)
    rcases Sender.commit_outcome hcall.pairs hcommit with ⟨e, rfl, rfl⟩ | ⟨p, rfl, hcommitted⟩
    · exact .inl ⟨e, rfl, rfl⟩
    · refine .inr ⟨(hcommitted.expected observed hexpected).symm, fun pair => ?_⟩
      rw [Bool.eq_iff_iff, listed, decide_eq_true_eq]
      exact Sender.is_active_committed hcall hrest hcommitted pair

theorem effect_of_written {t : τ} {left observed : ℕ} {claims : List EnumeratedClaim}
    {call : SnapshotCall} {now : ℚ} {snapshot_uuid : Uuid4}
    {result : Except SenderError SnapshotPayload} {sender : Sender.State}
    (hsound : Sound env config s) (hphase : s.phases t = .writing left observed claims)
    (hclaims : call.claims = claims) (hexpected : call.expected_seq = some observed)
    (hcommit : Sender.Step env s.sender (.commit call now snapshot_uuid result) sender)
    (pair : Text × Text) :
    Effect s a { s.goto t (.written left result) with sender } pair := by
  subst hclaims
  rcases written_active hsound hexpected hcommit with ⟨e, -, hdb⟩ | ⟨hcurrent, hactive⟩
  · exact .quiet rfl (congrArg (is_active · pair) hdb) rfl
  · exact .replaced t observed call.claims (hphase ▸ .writing left observed call.claims) hcurrent rfl
      (hactive pair) rfl

theorem effect (hsound : Sound env config s) (h : Step env config s a s') (pair : Text × Text) :
    Effect s a s' pair := by
  cases h with
  | @ban jail ip ip' text bantime hip htext hlonger =>
    refine effect_of_hooked (pair_actionban hip) rfl ?_ pair
    have hbantime : (actionban jail ip text).bantime.bind int_decimal = some bantime := htext
    rw [Hook.write, show (actionban jail ip text).op = .ban from rfl, hbantime]
    dsimp only
    rcases hlonger with rfl | hnot
    · rfl
    · by_cases hpermanent : some bantime = some (-1)
      · rw [if_pos hpermanent, decide_eq_true hpermanent]
      · rw [if_neg hpermanent, decide_eq_false hpermanent, State.banned, decide_eq_false hnot]
  | unban hip => exact effect_of_hooked (pair_actionunban hip) rfl rfl pair
  | drift bans hquiet =>
    cases hnone : s.outstanding pair with
    | nil => exact .drift rfl rfl hnone
    | cons h rest =>
      have hmem : h ∈ s.outstanding pair := hnone ▸ List.mem_cons_self
      obtain ⟨hmem, hpair⟩ := List.mem_filter.mp hmem
      refine .quiet ?_ rfl rfl
      exact congrArg (fun bantime => decide (bantime = some (-1)))
        (hquiet h hmem pair (of_decide_eq_true hpair))
  | hook hhooks hfirst hrun => exact effect_of_hook hsound hhooks hfirst hrun pair
  | written hphase hclaims hexpected hcommit =>
    exact effect_of_written hsound hphase hclaims hexpected hcommit pair
  | @call t left observed claims sender hphase hcall =>
    refine .quiet rfl ((seq_step hsound (.call hphase hcall)).2 rfl pair) rfl
  | @sender b sender hother h =>
    have hnone : (Label.sender b : Label τ).issued = none := by
      rw [Label.issued, Label.of_sender, Option.bind_some]
      cases b <;> first | rfl | exact absurd hother id
    exact .quiet rfl ((seq_step hsound (.sender hother h)).2 hnone pair) rfl
  | _ => exact .quiet rfl rfl rfl

/-! ## Every state

What needs no condition on the run: the sender is sound, a command has read no more than the
number that is stored, and the hooks still to run end with what Fail2Ban holds. The last of these
is what makes the bans themselves a good checkpoint (`Redo.Closed`). -/

theorem closed_step (hsound : Sound env config s) (h : Step env config s a s') (pair : Text × Text) :
    Closed Hook.write (s'.banned pair) (s'.outstanding pair) := by
  have hclosed := hsound.closed pair
  cases effect hsound h pair with
  | quiet hbanned hactive hhooks => rwa [hbanned, hhooks]
  | write hook hbanned hactive hhooks =>
    rw [hbanned, hhooks]
    exact hclosed.append write_absorbing hook
  | drift hlabel hactive hnone =>
    rw [hnone]
    exact Closed.nil _
  | seen hook outcome hlabel hpair hbanned hactive hhooks =>
    rw [hhooks] at hclosed
    rw [hbanned]
    exact hclosed.carry_out write_absorbing
  | dropped hook outcome hlabel hpair hdecides hfailed hbanned hactive hhooks =>
    rw [hhooks] at hclosed
    rw [hbanned]
    exact hclosed.carry_out write_absorbing
  | replaced t observed claims hreads hcurrent hbanned hactive hhooks => rwa [hbanned, hhooks]

/-- What a command has read is kept, or it has just read it. -/
inductive ReadStep (config : SenderConfig) (s : State τ) (t : τ) (observed : ℕ)
    (rest : List PermanentJail) (claims : List EnumeratedClaim) : Prop
  | same (h : Reads (s.phases t) observed rest claims)
  | observed (hobserved : observed = s.sender.db.seq) (hrest : rest = config.permanent_jails)
      (hclaims : claims = [])
  | asked (jail : PermanentJail) (before list : List EnumeratedClaim) (completed : Option Completed)
      (h : Reads (s.phases t) observed (jail :: rest) before)
      (hlist : enumerate_jail completed jail = .ok list) (hclaims : claims = before ++ list)
      (hanswer : ∀ c, completed = some c → c.returncode = 0 → Answers s.bans jail.name c)

theorem read_step (h : Step env config s a s') {t : τ} {observed : ℕ} {rest : List PermanentJail}
    {claims : List EnumeratedClaim} (hreads : Reads (s'.phases t) observed rest claims) :
    ReadStep config s t observed rest claims := by
  have hgoto : ∀ {t' : τ} {phase : Phase}, Reads ((s.goto t' phase).phases t) observed rest claims →
      (t' = t ∧ Reads phase observed rest claims) ∨ Reads (s.phases t) observed rest claims := by
    intro t' phase h
    by_cases ht : t = t'
    · subst ht
      rw [phases_goto_self] at h
      exact .inl ⟨rfl, h⟩
    · rw [phases_goto_other s ht] at h
      exact .inr h
  cases h with
  | start hphase =>
    rcases hgoto hreads with ⟨rfl, h⟩ | h
    · cases h
    · exact .same h
  | @observe _ left hphase =>
    rcases hgoto hreads with ⟨rfl, h⟩ | h
    · cases left with
      | zero => cases h
      | succ left =>
        cases h
        exact .observed rfl rfl rfl
    · exact .same h
  | @ask _ left observed' jail rest' before completed hphase hanswer =>
    rcases hgoto hreads with ⟨rfl, h⟩ | h
    · unfold Phase.ask at h
      cases hlist : enumerate_jail completed jail with
      | error failure =>
        rw [hlist] at h
        cases h
      | ok list =>
        rw [hlist] at h
        cases h
        refine .asked jail before list completed ?_ hlist rfl hanswer
        rw [hphase]
        exact .asking _ _ _ _
    · exact .same h
  | call hphase hcall =>
    rcases hgoto hreads with ⟨rfl, h⟩ | h
    · cases h
      refine .same ?_
      rw [hphase]
      exact .asking _ _ _ _
    · exact .same h
  | @written _ left observed' _ _ _ _ result _ hphase hclaims hexpected hcommit =>
    rcases hgoto hreads with ⟨rfl, h⟩ | h
    · rcases result with e | p
      · cases e <;> cases h
      · cases h
    · exact .same h
  | stop t e =>
    rcases hgoto hreads with ⟨rfl, h⟩ | h
    · cases h
    · exact .same h
  | _ => exact .same hreads

theorem sound_step (hnames : config.jail_names.Nodup) (hsound : Sound env config s)
    (h : Step env config s a s') : Sound env config s' where
  sender := by
    obtain ⟨log, delivered, hsender⟩ := hsound.sender
    rcases sender_part h with ⟨-, hsame⟩ | ⟨b, -, hstep⟩
    · rw [hsame]
      exact ⟨log, delivered, hsender⟩
    · exact ⟨_, _, Sender.sound_step hsender hstep⟩
  reads t observed rest claims hreads := by
    have hseq : s.sender.db.seq ≤ s'.sender.db.seq := by
      rw [(seq_step hsound h).1]
      exact Nat.le_add_right _ _
    cases read_step h hreads with
    | same hbefore =>
      obtain ⟨hle, hasked⟩ := hsound.reads t observed rest claims hbefore
      exact ⟨hle.trans hseq, hasked⟩
    | observed hobserved hrest hclaims =>
      rw [hobserved, hrest, hclaims]
      exact ⟨hseq, Asked.start config⟩
    | asked jail before list completed hbefore hlist hclaims hanswer =>
      obtain ⟨hle, hasked⟩ := hsound.reads t observed (jail :: rest) before hbefore
      rw [hclaims]
      exact ⟨hle.trans hseq, hasked.ask hnames hlist⟩
  closed := closed_step hsound h

theorem sound_run (hnames : config.jail_names.Nodup) {labels : List (Label τ)}
    (hsound : Sound env config s) (h : Run (Step env config) s labels s') : Sound env config s' := by
  refine Run.invariant (P := fun _ s => Sound env config s) hsound ?_ h
  intro labels s₁ a s₂ _ hsound hstep
  exact sound_step hnames hsound hstep

/-- Nothing is active for a jail that is not configured. -/
theorem configured_step (hsound : Sound env config s)
    (hall : ∀ pair : Text × Text, s.active pair = true → pair.1 ∈ config.jail_names)
    (h : Step env config s a s') (pair : Text × Text) (hactive : s'.active pair = true) :
    pair.1 ∈ config.jail_names := by
  cases effect hsound h pair with
  | quiet hbanned hsame hhooks => exact hall pair (hsame ▸ hactive)
  | write hook hbanned hsame hhooks => exact hall pair (hsame ▸ hactive)
  | drift hlabel hsame hnone => exact hall pair (hsame ▸ hactive)
  | dropped hook outcome hlabel hpair hdecides hfailed hbanned hsame hhooks =>
    exact hall pair (hsame ▸ hactive)
  | seen hook outcome hlabel hpair hbanned hwritten hhooks =>
    subst hlabel
    cases h with
    | hook hhooks hfirst hrun =>
      cases hrun with
      | called hcheck hcall =>
        rw [← jail_of_pair hpair]
        by_contra hjail
        unfold check_enqueue at hcheck
        rw [if_pos hjail] at hcheck
        cases hcheck
      | _ => exact hall pair hactive
  | replaced t observed claims hreads hcurrent hbanned hlisted hhooks =>
    rw [hlisted, listed, decide_eq_true_eq] at hactive
    obtain ⟨c, hc, rfl⟩ := List.mem_map.mp hactive
    obtain ⟨runner, henumerated⟩ := (hsound.reads t observed [] claims hreads).2.enumerated
    obtain ⟨⟨jail, hjail, hname⟩, -, -⟩ := Sender.enumerate_spec henumerated c hc
    exact List.mem_map.mpr ⟨jail, hjail, hname.symm⟩

theorem configured_run (hnames : config.jail_names.Nodup) {bans : Text × Text → Option ℤ}
    {labels : List (Label τ)} (h : Run (Step env config) (State.initial bans) labels s)
    (pair : Text × Text) (hactive : is_active s.sender.db pair = true) : pair.1 ∈ config.jail_names := by
  have hall : Sound env config s ∧ ∀ pair : Text × Text, s.active pair = true →
      pair.1 ∈ config.jail_names := by
    refine Run.invariant (P := fun _ (s : State τ) => Sound env config s ∧
      ∀ pair : Text × Text, s.active pair = true → pair.1 ∈ config.jail_names)
      ⟨Sound.initial env config bans, fun pair hpair => (by cases hpair)⟩ ?_ h
    intro labels s₁ a s₂ _ hbefore hstep
    exact ⟨sound_step hnames hbefore.1 hstep, configured_step hbefore.1 hbefore.2 hstep⟩
  exact hall.2 pair hactive

/-! ## What was read

Reading goes jail by jail, and what was read of one jail grows old while the next is asked. It is
good for something as long as no number has been allocated: `enqueue_snapshot` refuses it after
that. The induction over the reading is done once here, for any notion of good. -/

/-- The claims a command has read are good for the jails it has asked, as long as its number is the
last. -/
def Current (config : SenderConfig) (Good : State τ → Text × Text → Bool → Prop) (s : State τ) (t : τ) :
    Prop :=
  ∀ observed rest claims, Reads (s.phases t) observed rest claims → observed = s.sender.db.seq →
    ∀ pair : Text × Text, pair.1 ∈ config.jail_names → pair.1 ∉ rest.map PermanentJail.name →
      Good s pair (listed claims pair)

/-- The answer of a jail tells its bans. -/
theorem listed_answer {bans : Text × Text → Option ℤ} {jail : PermanentJail}
    {list : List EnumeratedClaim} {completed : Option Completed}
    (hlist : enumerate_jail completed jail = .ok list)
    (hanswer : ∀ c, completed = some c → c.returncode = 0 → Answers bans jail.name c)
    {pair : Text × Text} (hjail : pair.1 = jail.name) :
    listed list pair = decide (bans pair = some (-1)) := by
  obtain ⟨stdout, ips, rfl, hips, rfl⟩ := Sender.enumerate_jail_eq_ok hlist
  obtain ⟨tickets, hor, hbans⟩ := hanswer _ rfl rfl
  have hsame : ips = permanent tickets := by
    rcases hor with ⟨hblank, rfl⟩ | ⟨hblank, htickets⟩
    · rw [Sender._extract_permanent_ips, if_pos hblank] at hips
      cases hips
      rfl
    · rcases Sender.extract_listed hips with ⟨hnot, -⟩ | ⟨tickets', htickets', -, rfl⟩
      · exact absurd hnot hblank
      · rw [Sender.tickets_unique htickets' htickets]
  have hpair : ∀ ip ∈ ips, Sender.EnumeratedClaim.pair { jail := jail.name, ip } = (jail.name, ip) := by
    intro ip hip
    rw [Sender.EnumeratedClaim.pair, Sender.canonical_ip_self (Sender.extract_canonical hips ip hip)]
  obtain ⟨name, ip⟩ := pair
  dsimp only at hjail
  subst hjail
  rw [Bool.eq_iff_iff, listed, decide_eq_true_eq, decide_eq_true_eq, ← hbans, ← hsame, List.map_map,
    List.mem_map]
  constructor
  · rintro ⟨ip', hip', heq⟩
    rw [Function.comp_apply, hpair ip' hip'] at heq
    exact (Prod.mk.inj heq).2 ▸ hip'
  · intro hip
    exact ⟨ip, hip, hpair ip hip⟩

theorem listed_append (claims list : List EnumeratedClaim) (pair : Text × Text) :
    listed (claims ++ list) pair = (listed claims pair || listed list pair) := by
  rw [Bool.eq_iff_iff, Bool.or_eq_true, listed, listed, listed, decide_eq_true_eq, decide_eq_true_eq,
    decide_eq_true_eq, List.map_append, List.mem_append]

theorem listed_false {claims : List EnumeratedClaim} {pair : Text × Text}
    (h : ∀ c ∈ claims, c.jail ≠ pair.1) : listed claims pair = false := by
  rw [listed, decide_eq_false_iff_not, List.mem_map]
  rintro ⟨c, hc, rfl⟩
  exact h c hc rfl

/-- What is good of an answer that has just come and kept while the number stays is good. -/
theorem current_step (hnames : config.jail_names.Nodup) {Good : State τ → Text × Text → Bool → Prop}
    (hsound : Sound env config s) (h : Step env config s a s') {t : τ} (hcurrent : Current config Good s t)
    (hread : ∀ pair : Text × Text, pair.1 ∈ config.jail_names → Good s pair (s.banned pair))
    (hkeep : a.issued = none → ∀ (pair : Text × Text) checkpoint, pair.1 ∈ config.jail_names →
      Good s pair checkpoint → Good s' pair checkpoint) : Current config Good s' t := by
  intro observed rest claims hreads hlast pair hjail hasked
  have hseq := (seq_step hsound h).1
  -- a number that was allocated is beyond the one that was read
  have hunnoticed : observed ≤ s.sender.db.seq → a.issued = none ∧ observed = s.sender.db.seq := by
    intro hle
    have hlength : a.issued.toList.length = 0 := by omega
    exact ⟨Option.toList_eq_nil_iff.mp (List.length_eq_zero_iff.mp hlength), by omega⟩
  cases read_step h hreads with
  | same hbefore =>
    obtain ⟨hnone, hobserved⟩ := hunnoticed (hsound.reads t observed rest claims hbefore).1
    exact hkeep hnone pair _ hjail (hcurrent observed rest claims hbefore hobserved pair hjail hasked)
  | observed hobserved hrest hclaims =>
    rw [hrest] at hasked
    exact absurd hjail hasked
  | asked jail before list completed hbefore hlist hclaims hanswer =>
    obtain ⟨hle, hbeforeAsked⟩ := hsound.reads t observed (jail :: rest) before hbefore
    obtain ⟨hnone, hobserved⟩ := hunnoticed hle
    refine hkeep hnone pair _ hjail ?_
    rw [hclaims, listed_append]
    by_cases hname : pair.1 = jail.name
    · rw [listed_answer hlist hanswer hname, listed_false, Bool.false_or]
      · exact hread pair hjail
      · intro c hc
        rw [hname]
        exact hbeforeAsked.jail_ne hnames c hc
    · have hother : ∀ c ∈ list, c.jail ≠ pair.1 := by
        intro c hc
        obtain ⟨stdout, ips, -, -, rfl⟩ := Sender.enumerate_jail_eq_ok hlist
        obtain ⟨ip, -, rfl⟩ := List.mem_map.mp hc
        exact fun h => hname h.symm
      rw [listed_false hother, Bool.or_false]
      refine hcurrent observed _ before hbefore hobserved pair hjail ?_
      rw [List.map_cons, List.mem_cons, not_or]
      exact ⟨hname, hasked⟩

/-! ## In step

Of two copies of the bans one is the claims, which see every hook, and the other is what a command
has read, which misses those that run after the reading. As long as the number stays, a hook that
ran has changed nothing, so what was read is a checkpoint that may still be installed. -/

/-- The claims are the bans but for the hooks that have not run, and what the commands have read
since the last number may replace them. -/
structure Agreed (config : SenderConfig) (s : State τ) : Prop where
  behind : ∀ pair : Text × Text, pair.1 ∈ config.jail_names →
    Behind Hook.write (s.banned pair) (s.active pair) (s.outstanding pair)
  current : ∀ t, Current config (fun s pair checkpoint =>
    Usable Hook.write checkpoint (s.active pair) (s.outstanding pair)) s t

omit [DecidableEq τ] in
theorem not_dropped {h : Hook} {outcome : Outcome} {pair : Text × Text}
    (hdrops : ¬ Drops config (.hook h outcome : Label τ)) (hpair : h.pair = some pair)
    (hjail : pair.1 ∈ config.jail_names) (hdecides : Decides h) : ¬ outcome.Failed := by
  intro hfailed
  rw [← jail_of_pair hpair] at hjail
  exact hdrops (.hook hjail hdecides hfailed)

theorem agreed_step (hnames : config.jail_names.Nodup) (hsound : Sound env config s)
    (hagreed : Agreed config s) (h : Step env config s a s') (hdrift : a ≠ .drift)
    (hdrops : ¬ Drops config a) : Agreed config s' where
  behind pair hjail := by
    have hbehind := hagreed.behind pair hjail
    cases effect hsound h pair with
    | quiet hbanned hactive hhooks => rwa [hbanned, hactive, hhooks]
    | write hook hbanned hactive hhooks =>
      rw [hbanned, hactive, hhooks]
      exact hbehind.append hook
    | drift hlabel hactive hnone => exact absurd hlabel hdrift
    | seen hook outcome hlabel hpair hbanned hactive hhooks =>
      rw [hhooks] at hbehind
      rw [hbanned, hactive]
      exact hbehind.carry_out
    | dropped hook outcome hlabel hpair hdecides hfailed hbanned hactive hhooks =>
      exact absurd hfailed (not_dropped (hlabel ▸ hdrops) hpair hjail hdecides)
    | replaced t observed claims hreads hcurrent hbanned hactive hhooks =>
      rw [hbanned, hactive, hhooks]
      exact hbehind.install write_absorbing
        (hagreed.current t observed [] claims hreads hcurrent pair hjail List.not_mem_nil)
  current t := by
    refine current_step hnames hsound h (hagreed.current t)
      (fun pair hjail => (hagreed.behind pair hjail).usable) ?_
    intro hnone pair checkpoint hjail husable
    have hsame := (seq_step hsound h).2 hnone pair
    rw [hsame]
    cases effect hsound h pair with
    | quiet hbanned hactive hhooks => rwa [hhooks]
    | write hook hbanned hactive hhooks =>
      rw [hhooks]
      exact husable.append hook
    | drift hlabel hactive hdriftNone => exact absurd hlabel hdrift
    | seen hook outcome hlabel hpair hbanned hactive hhooks =>
      -- it had nothing to do, or it would have taken a number
      rw [hhooks] at husable
      exact husable.unchanged (hactive.symm.trans hsame)
    | dropped hook outcome hlabel hpair hdecides hfailed hbanned hactive hhooks =>
      exact absurd hfailed (not_dropped (hlabel ▸ hdrops) hpair hjail hdecides)
    | replaced t observed claims hreads hcurrent hbanned hactive hhooks => rwa [hhooks]

theorem agreed_run (hnames : config.jail_names.Nodup) {labels : List (Label τ)}
    (hsound : Sound env config s) (hagreed : Agreed config s) (h : Run (Step env config) s labels s')
    (hkept : ∀ a ∈ labels, a ≠ .drift ∧ ¬ Drops config a) : Agreed config s' := by
  induction h with
  | nil => exact hagreed
  | @snoc labels s₁ s₂ a hrun hlast ih =>
    have hlabel := hkept a (List.mem_append_right _ (List.mem_singleton_self a))
    exact agreed_step hnames (sound_run hnames hsound hrun)
      (ih (fun b hb => hkept b (List.mem_append_left _ hb))) hlast hlabel.1 hlabel.2

/-! ## Out of step

Nothing is assumed of the claims, but a command that reads now reads the bans. It goes wrong only
by a hook that runs in the window and allocates no number: then the claims were right about that
pair, the command has read something else, and no fence stops it. -/

/-- What a command has read are the bans but for the hooks that have not run, whatever the claims
are. -/
abbrev Fresh (config : SenderConfig) (s : State τ) (t : τ) : Prop :=
  Current config (fun s pair checkpoint =>
    Behind Hook.write (s.banned pair) checkpoint (s.outstanding pair)) s t

omit [DecidableEq τ] in
theorem issued_of_recorded {h : Hook} {outcome : Outcome} (hrecorded : outcome.Recorded) :
    (Label.hook h outcome : Label τ).issued ≠ none := by
  match outcome, hrecorded with
  | .called _ _ _ (.ok (some p)), _ => exact Option.some_ne_none _

theorem fresh_step (hnames : config.jail_names.Nodup) (hsound : Sound env config s) {t : τ}
    (hfresh : Fresh config s t) (h : Step env config s a s') (hdrift : a ≠ .drift)
    (hsilent : ¬ Silent config a) : Fresh config s' t := by
  refine current_step hnames hsound h hfresh (fun pair _ => (hsound.closed pair).behind) ?_
  intro hnone pair checkpoint hjail hbehind
  -- a hook that runs unnoticed is a temporary ban
  have hsilently : ∀ (hook : Hook) (outcome : Outcome), a = .hook hook outcome →
      hook.pair = some pair → ¬ Decides hook := by
    rintro hook outcome rfl hpair hdecides
    rw [← jail_of_pair hpair] at hjail
    exact hsilent (.hook hjail hdecides (fun hrecorded => issued_of_recorded hrecorded hnone))
  cases effect hsound h pair with
  | quiet hbanned hactive hhooks => rwa [hbanned, hhooks]
  | write hook hbanned hactive hhooks =>
    rw [hbanned, hhooks]
    exact hbehind.append hook
  | drift hlabel hactive hdriftNone => exact absurd hlabel hdrift
  | seen hook outcome hlabel hpair hbanned hactive hhooks =>
    rw [hhooks] at hbehind
    rw [hbanned]
    have hcarried := hbehind.carry_out
    rwa [write_of_not_decides (hsilently hook outcome hlabel hpair)] at hcarried
  | dropped hook outcome hlabel hpair hdecides hfailed hbanned hactive hhooks =>
    exact absurd hdecides (hsilently hook outcome hlabel hpair)
  | replaced t observed claims hreads hcurrent hbanned hactive hhooks => rwa [hbanned, hhooks]

theorem fresh_run (hnames : config.jail_names.Nodup) {labels : List (Label τ)} {t : τ}
    (hsound : Sound env config s) (hfresh : Fresh config s t) (h : Run (Step env config) s labels s')
    (hwindow : ∀ a ∈ labels, a ≠ .drift ∧ ¬ Silent config a) : Fresh config s' t := by
  induction h with
  | nil => exact hfresh
  | @snoc labels s₁ s₂ a hrun hlast ih =>
    have hlabel := hwindow a (List.mem_append_right _ (List.mem_singleton_self a))
    exact fresh_step hnames (sound_run hnames hsound hrun)
      (ih (fun b hb => hwindow b (List.mem_append_left _ hb))) hlast hlabel.1 hlabel.2

/-- Who has just read the number has read no claims. -/
theorem fresh_of_observe {t : τ} (h : Step env config s (.observe t) s') : Fresh config s' t := by
  intro observed rest claims hreads hlast pair hjail hasked
  cases h with
  | @observe _ left hphase =>
    rw [phases_goto_self] at hreads
    cases left with
    | zero => cases hreads
    | succ left =>
      cases hreads
      exact absurd hjail hasked

/-- The snapshot brings the claims in step, and whoever has read before will be refused. -/
theorem agreed_of_written (hsound : Sound env config s) {t : τ} {call : SnapshotCall} {now : ℚ}
    {snapshot_uuid : Uuid4} {p : SnapshotPayload} (hfresh : Fresh config s t)
    (h : Step env config s (.written t call now snapshot_uuid (.ok p)) s') : Agreed config s' := by
  have hseq : s'.sender.db.seq = s.sender.db.seq + 1 := (seq_step hsound h).1
  constructor
  · intro pair hjail
    cases h with
    | @written _ left observed _ _ _ _ _ sender hphase hclaims hexpected hcommit =>
      subst hclaims
      rcases written_active hsound hexpected hcommit with ⟨e, he, -⟩ | ⟨hcurrent, hactive⟩
      · cases he
      · have hbehind := hfresh observed [] call.claims (hphase ▸ .writing left observed call.claims)
          hcurrent pair hjail List.not_mem_nil
        rw [← hactive pair] at hbehind
        exact hbehind
  · intro t' observed rest claims hreads hlast
    have hle : observed ≤ s.sender.db.seq := by
      cases read_step h hreads with
      | same hbefore => exact (hsound.reads t' observed rest claims hbefore).1
      | observed hobserved hrest hclaims => exact le_of_eq hobserved
      | asked jail before list completed hbefore hlist hclaims hanswer =>
        exact (hsound.reads t' observed (jail :: rest) before hbefore).1
    omega

/-- **A snapshot that counts.** A command read the number (`observe`) and wrote its snapshot; in the
window between the two no hook for a configured jail that decides a claim ended without an event, and
no ban changed without a hook; and after it no such hook failed, and no ban changed without a hook.
The window is stricter than what comes after, since a hook that only repeats a claim allocates no
number there and the fence does not see it. -/
inductive Reconciled (config : SenderConfig) : List (Label τ) → Prop
  | mk {before window after : List (Label τ)} {t : τ} {call : SnapshotCall} {now : ℚ}
      {snapshot_uuid : Uuid4} {p : SnapshotPayload}
      (hnoticed : ∀ a ∈ window, a ≠ .drift ∧ ¬ Silent config a)
      (hkept : ∀ a ∈ after, a ≠ .drift ∧ ¬ Drops config a) :
      Reconciled config (before ++ .observe t :: (window ++
        .written t call now snapshot_uuid (.ok p) :: after))

theorem agreed_of_reconciled (hnames : config.jail_names.Nodup) {labels : List (Label τ)}
    (hsound : Sound env config s) (h : Run (Step env config) s labels s')
    (hreconciled : Reconciled config labels) : Agreed config s' := by
  cases hreconciled with
  | mk hnoticed hkept =>
    obtain ⟨s₀, hbefore, h⟩ := h.of_append
    obtain ⟨s₁, hobserve, h⟩ := h.of_cons
    obtain ⟨s₂, hwindow, h⟩ := h.of_append
    obtain ⟨s₃, hwritten, hafter⟩ := h.of_cons
    have hsound₁ := sound_run hnames hsound (hbefore.snoc hobserve)
    have hsound₂ := sound_run hnames hsound₁ hwindow
    have hfresh := fresh_run hnames hsound₁ (fresh_of_observe hobserve) hwindow hnoticed
    exact agreed_run hnames (sound_step hnames hsound₂ hwritten)
      (agreed_of_written hsound₂ hfresh hwritten) hafter hkept

end Invariant

/-- **Claims follow bans.** Take any bans at the start and any run of Fail2Ban, its hooks, snapshot
commands and the worker. `Step` assumes three things of Fail2Ban: it does not shorten a ban for ever,
bans change without a hook only for pairs that no hook is outstanding for, and the hooks of a jail run
in their order. Of the run, `Reconciled` asks for one snapshot that went through. Between the step in
which its command read the number and the one in which it was written, no hook for a configured jail
that decides a claim ended without an event, and no ban changed without a hook; after it no such hook
failed, and again no ban changed without a hook.

Then the active claims of the configured jails are the permanent bans but for the hooks that have not
run, however many commands, hooks and workers go on. Carrying those out gives the bans, and an address
without any is active exactly when it is banned for ever. -/
theorem bans_reconciled {τ : Type} [DecidableEq τ] (env : Sender.Env) (lib : Sender.Library) (raw : Json)
    (config : SenderConfig) (hconfig : SenderConfig.from_dict lib raw = .ok config)
    (bans : Text × Text → Option ℤ) (labels : List (Label τ)) (s : State τ)
    (h : Run (Step env config) (State.initial bans) labels s) (hreconciled : Reconciled config labels) :
    ∀ pair : Text × Text, pair.1 ∈ config.jail_names →
      replay Hook.write (is_active s.sender.db pair) (s.outstanding pair) =
        decide (s.bans pair = some (-1)) ∧
      (s.outstanding pair = [] → (is_active s.sender.db pair = true ↔ s.bans pair = some (-1))) := by
  have hnames := Sender.from_dict_names hconfig
  have hagreed := agreed_of_reconciled hnames (Sound.initial env config bans) h hreconciled
  intro pair hjail
  have hbehind := hagreed.behind pair hjail
  refine ⟨hbehind, fun hnone => ?_⟩
  rw [hnone] at hbehind
  rw [show is_active s.sender.db pair = decide (s.bans pair = some (-1)) from hbehind.caught_up,
    decide_eq_true_eq]

/-! ## A ban of old that is released

The address was banned before the sender was installed, so only a snapshot can claim it. Then the
ban is released, and its hook releases the claim. -/

def sample_pair : Text × Text := ("sshd".toList, "203.0.113.7".toList)

def sample_config : SenderConfig := Sender.sample_config "sshd" Sender.valid_sshd

/-- Fail2Ban has banned the address before the sender was installed. -/
def sample_bans (pair : Text × Text) : Option ℤ := if pair = sample_pair then some (-1) else none

def sample_answer : Completed :=
  ⟨0, "203.0.113.7 \t2025-01-01 00:00:00 + -1 = 9999-12-31 23:59:59\n".toList⟩

theorem sample_answers : Answers sample_bans "sshd".toList sample_answer := by
  refine ⟨[("203.0.113.7".toList, "-1".toList)], .inr ⟨by decide +kernel, ?_⟩, fun ip => ?_⟩
  · have hlines : splitlines sample_answer.stdout =
        ["203.0.113.7 \t2025-01-01 00:00:00 + -1 = 9999-12-31 23:59:59".toList] := by decide +kernel
    rw [hlines]
    refine List.Forall₂.cons ⟨"203.0.113.7".toList, Sender.ban_with_time_iff.mp (by decide +kernel),
      by decide +kernel⟩ List.Forall₂.nil
  · have hpermanent : permanent [("203.0.113.7".toList, "-1".toList)] = ["203.0.113.7".toList] := by
      decide +kernel
    rw [hpermanent, List.mem_singleton, sample_bans]
    simp [sample_pair]

def sample_claim : EnumeratedClaim := { jail := "sshd".toList, ip := "203.0.113.7".toList }

def sample_call : SnapshotCall where
  claims := [sample_claim]
  expected_seq := some 0
  rest := []
  normalized := [⟨"sshd".toList, Sender.sample_uuid.text, "203.0.113.7".toList⟩]

def sample_snapshot : SnapshotPayload :=
  ⟨Sender.sample_snapshot_uuid.text, 1,
    [⟨"sshd".toList, Sender.sample_uuid.text, "203.0.113.7".toList⟩]⟩

def sample_event : EventPayload :=
  ⟨Sender.sample_uuid'.text, 2, .unban, "sshd".toList, Sender.sample_uuid.text, "203.0.113.7".toList⟩

/-- The outbox after the snapshot. -/
def sample_db : Sender.DB :=
  (Sender.commit_snapshot Sender.sample_sender Sender.DB.initial sample_call.normalized (some 0) 0
    Sender.sample_snapshot_uuid).2

theorem sample_bantime : (-1 : ℤ) = -1 := rfl

def sample_jail : PermanentJail := ⟨"sshd".toList, -1, Sender.valid_sshd, sample_bantime⟩

/-- The snapshot command has read the number. -/
def sample_observed : State Unit :=
  ((State.initial sample_bans).goto () .started).goto () (.asking 4 0 [sample_jail] [])

/-- It has enumerated the ban and is about to write it. -/
def sample_writing : State Unit :=
  { (sample_observed.goto () (.asking 4 0 [] [sample_claim])).goto () (.writing 4 0 [sample_claim]) with
    sender := { Sender.State.initial with calls := [sample_call] } }

theorem sample_window : Run (Step Sender.sample_sender sample_config) sample_observed
    [.ask (), .call () [sample_claim] 0, .sender (.normalize Sender.sample_uuid)] sample_writing := by
  have hlist : enumerate_jail (some sample_answer) sample_jail = .ok [sample_claim] := by decide +kernel
  have hask := @Step.ask Sender.sample_sender sample_config Unit _ sample_observed () 4 0 sample_jail [] []
    (some sample_answer) (phases_goto_self _ _ _) (fun c hc _ => Option.some.inj hc ▸ sample_answers)
  rw [Phase.ask, hlist] at hask
  have hcall := @Step.call Sender.sample_sender sample_config Unit _
    (sample_observed.goto () (.asking 4 0 [] [sample_claim])) () 4 0 [sample_claim] _
    (phases_goto_self _ _ _) (Sender.Step.begin_snapshot _ _ _)
  have hloop : Sender.Step Sender.sample_sender
      { Sender.State.initial with calls := [⟨[sample_claim], some 0, [sample_claim], []⟩] }
      (.normalize Sender.sample_uuid) { Sender.State.initial with calls := [sample_call] } :=
    @Sender.Step.normalize Sender.sample_sender _ [] [] ⟨[sample_claim], some 0, [sample_claim], []⟩
      sample_claim [] sample_call.normalized Sender.sample_uuid rfl rfl (by decide)
  exact Run.cons hask (Run.cons hcall (Run.single (Step.sender trivial hloop)))

/-- The snapshot is written. -/
def sample_written : State Unit :=
  { sample_writing.goto () (.ended (.ok ())) with sender := ⟨sample_db, [], none⟩ }

def sample_release : Hook := actionunban "sshd".toList "203.0.113.7".toList

/-- The ban is released, and the hook runs. -/
theorem sample_released : ∃ s, Run (Step Sender.sample_sender sample_config) sample_written
    [.unban "sshd".toList "203.0.113.7".toList, .hook sample_release
      (.called 1 Sender.sample_uuid Sender.sample_uuid' (.ok (some sample_event)))] s ∧
    s.outstanding sample_pair = [] ∧ s.bans sample_pair = none := by
  have hunban := @Step.unban Sender.sample_sender sample_config Unit _ sample_written "sshd".toList
    "203.0.113.7".toList "203.0.113.7".toList (by decide)
  have hcalled : (Sender.enqueue Sender.sample_sender sample_db "unban".toList "sshd".toList
      "203.0.113.7".toList 1 Sender.sample_uuid Sender.sample_uuid').1 = .ok (some sample_event) := by
    decide
  have hrun := @HookRun.called Sender.sample_sender sample_config sample_written.sender sample_release 1
    Sender.sample_uuid Sender.sample_uuid' _ _ (by decide) (Sender.Step.enqueue (Prod.ext hcalled rfl))
  have hhook := @Step.hook Sender.sample_sender sample_config Unit _
    { sample_written with
      bans := Function.update sample_written.bans sample_pair none
      hooks := sample_written.hooks ++ [sample_release] } [] [] sample_release _ _ rfl
    (fun b hb => absurd hb List.not_mem_nil) hrun
  have hnone : Function.update sample_written.bans sample_pair none sample_pair = none :=
    Function.update_self _ _ _
  exact ⟨_, Run.cons hunban (Run.single hhook), rfl, hnone⟩

theorem bans_reconciled_released : ∃ s : State Unit, s.outstanding sample_pair = [] ∧
    s.bans sample_pair = none ∧
    (is_active s.sender.db sample_pair = true ↔ s.bans sample_pair = some (-1)) := by
  have hconfig : SenderConfig.from_dict Sender.sample_library (Sender.sample_raw "sshd") =
      .ok sample_config := rfl
  have hstart := @Step.start Sender.sample_sender sample_config Unit _ (State.initial sample_bans) () _ rfl
  have hobserve : Step Sender.sample_sender sample_config
      ((State.initial sample_bans).goto () .started) (.observe ()) sample_observed :=
    @Step.observe Sender.sample_sender sample_config Unit _ _ () 5 (phases_goto_self _ _ _)
  have hphase : sample_writing.phases () = .writing 4 0 [sample_claim] :=
    phases_goto_self (sample_observed.goto () (.asking 4 0 [] [sample_claim])) () _
  have hcommit : (Sender.commit_snapshot Sender.sample_sender Sender.DB.initial sample_call.normalized
      (some 0) 0 Sender.sample_snapshot_uuid).1 = .ok sample_snapshot := by decide
  have hwritten : Step Sender.sample_sender sample_config sample_writing
      (.written () sample_call 0 Sender.sample_snapshot_uuid (.ok sample_snapshot)) sample_written :=
    @Step.written Sender.sample_sender sample_config Unit _ sample_writing () 4 0
      [sample_claim] sample_call 0 Sender.sample_snapshot_uuid (.ok sample_snapshot) _
      hphase rfl rfl
      (@Sender.Step.commit _ _ [] [] _ _ _ _ sample_db rfl rfl (Prod.ext hcommit rfl))
  obtain ⟨s, hafter, hnone, hbans⟩ := sample_released
  have hrun := (Run.single hstart).append (Run.cons hobserve (sample_window.append
    (Run.cons hwritten hafter)))
  refine ⟨s, hnone, hbans, ((bans_reconciled Sender.sample_sender Sender.sample_library
    (Sender.sample_raw "sshd") sample_config hconfig sample_bans _ s hrun
    (Reconciled.mk ?_ ?_)) sample_pair (by decide)).2 hnone⟩
  · intro a ha
    simp only [List.mem_cons, List.not_mem_nil, or_false] at ha
    rcases ha with rfl | rfl | rfl <;> exact ⟨fun h => (by cases h), fun h => (by cases h)⟩
  · intro a ha
    simp only [List.mem_cons, List.not_mem_nil, or_false] at ha
    rcases ha with rfl | rfl
    · exact ⟨fun h => (by cases h), fun h => (by cases h)⟩
    · refine ⟨fun h => (by cases h), fun h => ?_⟩
      cases h with
      | hook hjail hdecides hfailed => exact hfailed

end F2bguard.Reconciliation
