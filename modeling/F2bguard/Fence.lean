/-
The fence of the snapshot command.

The command reads the last number, asks Fail2Ban for its bans, and `enqueue_snapshot` is
refused when a number was allocated meanwhile. So every hook that wrote an event in between
makes the command start again (`fenced_snapshot`). But not every hook that returns in between
has written one there. A hook that only repeats what the claims say allocates no number, and a
hook whose transaction was over before the number was read allocated it too early. Fail2Ban may
have been asked at a moment when its bans said otherwise, and then the snapshot undoes the hook
although it has just returned.

To say when a hook returns, a call of `enqueue` has three steps here: it begins, it runs its
transaction, which is the step of the sender, and it returns. Any number of hooks do so at once,
each in its own process, between the steps of snapshot commands and workers.
-/
import F2bguard.RequestSize

set_option autoImplicit false

namespace F2bguard.Sender

open F2bguard.PyText F2bguard.PyJson F2bguard.Ipaddress F2bguard.Uuid F2bguard.Claims
open F2bguard.Tables F2bguard.Runs

/-! ## Numbers and claims over a run

Only a payload changes the claims, and every payload takes a number. So claims are the same in two
states of a run that have the same last number. -/

theorem sound_extend {env : Env} {log : List Payload} {done : List ℕ} {s s' : State}
    {labels : List Label} (hsound : Sound env log done s) (h : Run (Step env) s labels s') :
    Sound env (log ++ issued labels) (done ++ delivered labels) s' := by
  refine Run.invariant (P := fun labels s =>
    Sound env (log ++ issued labels) (done ++ delivered labels) s) ?_ ?_ h
  · simpa [issued, Sender.delivered] using hsound
  · intro labels s₁ a s₂ _ hsound hstep
    rw [issued_snoc, delivered_snoc, ← List.append_assoc, ← List.append_assoc]
    exact sound_step hsound hstep

/-- The last number counts the payloads. -/
theorem Sound.seq_eq_length {env : Env} {log : List Payload} {done : List ℕ} {s : State}
    (h : Sound env log done s) : s.db.seq = log.length := by
  have := congrArg List.length h.seqs
  rw [List.length_map, List.length_range'] at this
  exact this.symm

/-- A step that writes no payload leaves the claims alone. -/
theorem claims_of_not_issued {env : Env} {log : List Payload} {done : List ℕ} {s s' : State}
    {a : Label} (hsound : Sound env log done s) (hstep : Step env s a s') (h : a.issued = none) :
    s'.db.claims = s.db.claims := by
  cases hstep with
  | @enqueue op jail ip now ban_uuid event_uuid result db hcall =>
    rcases enqueue_outcome hsound.claims hcall with ⟨e, -, rfl⟩ | ⟨op', ip', -, -, -, -, hout⟩
    · rfl
    · cases hout with
      | refused e => rfl
      | repeated hrep => rfl
      | recorded hrec => cases h
  | @commit before after call now snapshot_uuid result db hcalls hrest hcommit =>
    have hcall : call.Sound := hsound.calls call (by rw [hcalls]; simp)
    rcases commit_outcome hcall.pairs hcommit with ⟨e, -, rfl⟩ | ⟨p, rfl, -⟩
    · rfl
    · cases h
  | @finish row now delivered hsending => cases delivered <;> rfl
  | _ => rfl

theorem claims_of_none_issued {env : Env} {log : List Payload} {done : List ℕ} {s s' : State}
    {labels : List Label} (hsound : Sound env log done s) (hrun : Run (Step env) s labels s')
    (h : issued labels = []) : s'.db.claims = s.db.claims := by
  refine Run.invariant (P := fun labels s' => issued labels = [] → s'.db.claims = s.db.claims)
    (fun _ => rfl) ?_ hrun h
  intro labels s₁ a s₂ hbefore ih hstep hnone
  rw [issued_snoc, List.append_eq_nil_iff] at hnone
  rw [claims_of_not_issued (sound_extend hsound hbefore) hstep
    (Option.toList_eq_nil_iff.mp hnone.2), ih hnone.1]

/-! ## What a snapshot does to the claims

The pairs of the argument are active after it, and no others. -/

/-- After a snapshot exactly the pairs of its argument are active. -/
theorem is_active_committed {env : Env} {db db' : DB} {call : SnapshotCall} {now : ℚ}
    {snapshot_uuid : Uuid4} {p : SnapshotPayload} (hcall : call.Sound) (hrest : call.rest = [])
    (h : Committed env db call.normalized call.expected_seq now snapshot_uuid p db')
    (pair : Text × Text) :
    is_active db' pair = true ↔ pair ∈ call.claims.map EnumeratedClaim.pair := by
  rw [← hcall.pairs_eq hrest]
  constructor
  · intro hactive
    by_contra hmem
    rw [is_active, h.others pair hmem] at hactive
    cases hrow : claim_of db pair <;> simp [hrow] at hactive
  · intro hmem
    rw [← h.pairs.mem_iff, List.mem_map] at hmem
    obtain ⟨c, hc, rfl⟩ := hmem
    rw [is_active, h.activated c hc]
    rfl

/-! ## Hooks

The sender's own steps are as before. What is added is only when a hook begins and when it
returns, and the sender sees neither. -/

/-- A hook's call of `enqueue`. -/
structure HookCall where
  op : Op
  jail : Text
  ip : Text

/-- How far a call has come. -/
inductive Stage
  | begun (c : HookCall)
  /-- the transaction is over, and the call has not returned -/
  | over (c : HookCall) (result : Except SenderError (Option EventPayload))

/-- The sender, and the calls of hooks that are under way. -/
structure Hooked where
  sender : State
  hooks : List Stage

def Hooked.initial : Hooked := ⟨State.initial, []⟩

inductive HookLabel
  | began (c : HookCall)
  | transaction (c : HookCall) (now : ℚ) (ban_uuid event_uuid : Uuid4)
      (result : Except SenderError (Option EventPayload))
  | returned (c : HookCall) (result : Except SenderError (Option EventPayload))
  | killed
  | sender (a : Label)

/-- What a step is for the sender. -/
def HookLabel.of_sender : HookLabel → Option Label
  | .transaction c now ban_uuid event_uuid result =>
      some (.enqueue c.op.text c.jail c.ip now ban_uuid event_uuid result)
  | .sender a => some a
  | _ => none

def Label.is_enqueue : Label → Bool
  | .enqueue .. => true
  | _ => false

inductive HookStep (env : Env) (s : Hooked) : HookLabel → Hooked → Prop
  | begin (c : HookCall) : HookStep env s (.began c) { s with hooks := .begun c :: s.hooks }
  | transaction {before after : List Stage} {c : HookCall} {now : ℚ} {ban_uuid event_uuid : Uuid4}
      {result : Except SenderError (Option EventPayload)} {sender : State}
      (hhooks : s.hooks = before ++ .begun c :: after)
      (h : Step env s.sender (.enqueue c.op.text c.jail c.ip now ban_uuid event_uuid result) sender) :
      HookStep env s (.transaction c now ban_uuid event_uuid result)
        ⟨sender, before ++ .over c result :: after⟩
  | returns {before after : List Stage} {c : HookCall}
      {result : Except SenderError (Option EventPayload)}
      (hhooks : s.hooks = before ++ .over c result :: after) :
      HookStep env s (.returned c result) { s with hooks := before ++ after }
  /-- The hook's process was killed, before its transaction or after it. -/
  | kill {before after : List Stage} {stage : Stage} (hhooks : s.hooks = before ++ stage :: after) :
      HookStep env s .killed { s with hooks := before ++ after }
  /-- Any other step of the sender: of a snapshot command, of the worker. -/
  | sender {a : Label} {sender : State} (hother : a.is_enqueue = false)
      (h : Step env s.sender a sender) : HookStep env s (.sender a) { s with sender }

/-- A run with hooks is a run of the sender. -/
theorem sender_run {env : Env} {s s' : Hooked} {labels : List HookLabel}
    (h : Run (HookStep env) s labels s') :
    Run (Step env) s.sender (labels.filterMap HookLabel.of_sender) s'.sender := by
  induction h with
  | nil => exact Run.nil
  | @snoc labels s₁ s₂ a _ hlast ih =>
    rw [List.filterMap_append]
    cases hlast with
    | transaction hhooks h => exact ih.snoc h
    | sender hother h => exact ih.snoc h
    | begin c => rwa [List.filterMap_cons_none rfl, List.filterMap_nil, List.append_nil]
    | returns hhooks => rwa [List.filterMap_cons_none rfl, List.filterMap_nil, List.append_nil]
    | kill hhooks => rwa [List.filterMap_cons_none rfl, List.filterMap_nil, List.append_nil]

/-! ## Hooks in the window

The window is open from the reading of the number to the transaction of the snapshot. A hook is in
it by its return; its transaction may lie before. -/

/-- A snapshot that takes `db` to `db'` does not undo a hook: what the hook wanted and had is not
turned over. -/
def Respects (db db' : DB) (op : Op) (pair : Text × Text) : Prop :=
  match op with
  | .ban => ¬ (is_active db pair = true ∧ is_active db' pair = false)
  | .unban => ¬ (is_active db pair = false ∧ is_active db' pair = true)

/-- Fail2Ban's answer agrees with a hook. -/
def Agrees (claims : List EnumeratedClaim) (op : Op) (pair : Text × Text) : Prop :=
  match op with
  | .ban => pair ∈ claims.map EnumeratedClaim.pair
  | .unban => pair ∉ claims.map EnumeratedClaim.pair

/-- The claim says the opposite of the hook: a later call has turned it over since the hook's
transaction. -/
def Overtaken (db : DB) (op : Op) (pair : Text × Text) : Prop :=
  is_active db pair ≠ decide (op = .ban)

theorem parse_hook_op (op : Op) : parse_op op.text = .ok op := by
  cases op <;> rfl

theorem op_text_injective {op op' : Op} (h : op.text = op'.text) : op = op' := by
  have := parse_hook_op op
  rw [h, parse_hook_op] at this
  exact (Except.ok.inj this).symm

/-- A transaction without an event repeats what the claims say. -/
theorem repeated_of_not_issued {env : Env} {log : List Payload} {done : List ℕ} {s s' : State}
    {op : Op} {jail ip ip' : Text} {now : ℚ} {ban_uuid event_uuid : Uuid4}
    {result : Option EventPayload} (hsound : Sound env log done s)
    (hstep : Step env s (.enqueue op.text jail ip now ban_uuid event_uuid (.ok result)) s')
    (hip : canonical_ip ip = .ok ip') (h : result = none) :
    is_active s.db (jail, ip') = decide (op = .ban) := by
  subst h
  cases hstep with
  | enqueue hcall =>
    rcases enqueue_outcome hsound.claims hcall with ⟨e, he, -⟩ | ⟨op', ip'', hop, -, hip', -, hout⟩
    · cases he
    · have hsame : ip'' = ip' := Except.ok.inj (hip'.symm.trans hip)
      rw [← hsame]
      cases op_text_injective hop
      cases hout with
      | repeated hrep => exact hrep

/-- A number that was allocated since the command read the last one stops the snapshot. -/
theorem fenced_snapshot {env : Env} {log : List Payload} {done : List ℕ} {s₀ s₁ s₂ : State}
    {labels : List Label} {call : SnapshotCall} {now : ℚ} {snapshot_uuid : Uuid4}
    {result : Except SenderError SnapshotPayload} (hsound : Sound env log done s₀)
    (hrun : Run (Step env) s₀ labels s₁) (hexpected : call.expected_seq = some s₀.db.seq)
    (hcommit : Step env s₁ (.commit call now snapshot_uuid result) s₂)
    (h : issued labels ≠ []) : result = .error .snapshot_race := by
  have hseq : s₁.db.seq ≠ s₀.db.seq := by
    rw [(sound_extend hsound hrun).seq_eq_length, hsound.seq_eq_length, List.length_append]
    have := List.length_pos_of_ne_nil h
    omega
  cases hcommit with
  | commit hcalls hrest hcommit =>
    have hrace : call.expected_seq.any (fun seq => s₁.db.seq ≠ seq) = true := by
      rw [hexpected, Option.any_some, decide_eq_true_eq]
      exact hseq
    unfold commit_snapshot commit_snapshot_body at hcommit
    rw [if_pos hrace] at hcommit
    exact (Prod.mk.inj hcommit).1.symm

/-- The snapshot command, from the state where it read the number to its transaction. Between the
two hooks begin, commit and return, and other commands and workers run. How the command came by
its list of bans is left open, so the list may be anything. -/
structure Window (env : Env) (s₀ : Hooked) (labels : List HookLabel) (s₁ : Hooked)
    (call : SnapshotCall) (result : Except SenderError SnapshotPayload) (s₂ : Hooked) : Prop where
  reachable : ∃ before, Run (HookStep env) Hooked.initial before s₀
  run : Run (HookStep env) s₀ labels s₁
  expected : call.expected_seq = some s₀.sender.db.seq
  commit : ∃ now snapshot_uuid,
    HookStep env s₁ (.sender (.commit call now snapshot_uuid result)) s₂

namespace Window

variable {env : Env} {s₀ s₁ s₂ : Hooked} {labels : List HookLabel} {call : SnapshotCall}
  {result : Except SenderError SnapshotPayload}

theorem sound (h : Window env s₀ labels s₁ call result s₂) :
    ∃ log done, Sound env log done s₀.sender := by
  obtain ⟨before, hbefore⟩ := h.reachable
  exact ⟨_, _, sound_run (sender_run hbefore)⟩

theorem race (h : Window env s₀ labels s₁ call result s₂)
    (hissued : issued (labels.filterMap HookLabel.of_sender) ≠ []) :
    result = .error .snapshot_race := by
  obtain ⟨log, done, hsound⟩ := h.sound
  obtain ⟨now, snapshot_uuid, hcommit⟩ := h.commit
  cases hcommit with
  | sender hother hcommit => exact fenced_snapshot hsound (sender_run h.run) h.expected hcommit hissued

/-- Until a snapshot that is enqueued, nothing has changed the claims. -/
theorem claims (h : Window env s₀ labels s₁ call result s₂) {p : SnapshotPayload}
    (hresult : result = .ok p) (pair : Text × Text) :
    is_active s₁.sender.db pair = is_active s₀.sender.db pair := by
  obtain ⟨log, done, hsound⟩ := h.sound
  have hnone : issued (labels.filterMap HookLabel.of_sender) = [] := by
    by_contra hissued
    rw [h.race hissued] at hresult
    cases hresult
  rw [is_active, is_active, claim_of, claim_of,
    claims_of_none_issued hsound (sender_run h.run) hnone]

/-- After it the claims are what Fail2Ban has answered. -/
theorem answered (h : Window env s₀ labels s₁ call result s₂) {p : SnapshotPayload}
    (hresult : result = .ok p) (pair : Text × Text) :
    is_active s₂.sender.db pair = true ↔ pair ∈ call.claims.map EnumeratedClaim.pair := by
  subst hresult
  obtain ⟨log, done, hsound⟩ := h.sound
  have hsound₁ := sound_extend hsound (sender_run h.run)
  obtain ⟨now, snapshot_uuid, hcommit⟩ := h.commit
  cases hcommit with
  | sender hother hcommit =>
    cases hcommit with
    | commit hcalls hrest hcommit =>
      have hcall : call.Sound := hsound₁.calls call (by rw [hcalls]; simp)
      rcases commit_outcome hcall.pairs hcommit with ⟨e, he, -⟩ | ⟨q, -, hcom⟩
      · cases he
      · exact is_active_committed hcall hrest hcom pair

/-- A hook whose transaction was in the window is not overtaken: it wrote no event, so it found its
claim as it wanted it, and no other call has written one. -/
theorem not_overtaken (h : Window env s₀ labels s₁ call result s₂) {p : SnapshotPayload}
    (hresult : result = .ok p) {c : HookCall} {now : ℚ} {ban_uuid event_uuid : Uuid4}
    {r : Option EventPayload} (ha : .transaction c now ban_uuid event_uuid (.ok r) ∈ labels)
    {ip : Text} (hip : canonical_ip c.ip = .ok ip) : ¬ Overtaken s₀.sender.db c.op (c.jail, ip) := by
  obtain ⟨log, done, hsound⟩ := h.sound
  have hnone : issued (labels.filterMap HookLabel.of_sender) = [] := by
    by_contra hissued
    rw [h.race hissued] at hresult
    cases hresult
  obtain ⟨as, bs, t₁, t₂, rfl, hbefore, hstep, -⟩ := h.run.exists_step_of_mem ha
  rw [List.filterMap_append, List.filterMap_cons_some (rfl : HookLabel.of_sender _ = _), issued,
    List.filterMap_append, List.append_eq_nil_iff] at hnone
  obtain ⟨hearlier, hlater⟩ := hnone
  have hr : r = none := by
    cases r with
    | none => rfl
    | some p => cases hlater
  cases hstep with
  | transaction hhooks hcall =>
    have hactive := repeated_of_not_issued (sound_extend hsound (sender_run hbefore)) hcall hip hr
    have hclaims := claims_of_none_issued hsound (sender_run hbefore) hearlier
    rw [is_active, claim_of, hclaims] at hactive
    exact not_not.mpr hactive

end Window

/-- **What the fence holds.** Take any snapshot command, from the state where it read the last number
to its transaction, with any hooks, commands and workers in between. If any of them wrote a payload
since, `enqueue_snapshot` raises `SnapshotRace`. If the snapshot is enqueued, take a hook that
returned since, whenever it began and committed: the snapshot leaves the claim as the hook wanted it
if and only if Fail2Ban's answer agrees with the hook, or the claim said the opposite already when the
number was read. The latter takes a later call that had turned the claim over before: no hook that
committed since the number was read is overtaken. -/
theorem snapshot_respects_iff (env : Env) (s₀ s₁ s₂ : Hooked) (labels : List HookLabel)
    (call : SnapshotCall) (result : Except SenderError SnapshotPayload)
    (h : Window env s₀ labels s₁ call result s₂) :
    ((∃ a ∈ labels, ∃ b, a.of_sender = some b ∧ b.issued.isSome) → result = .error .snapshot_race) ∧
      ∀ p, result = .ok p → ∀ c ip r, canonical_ip c.ip = .ok ip →
        (.returned c (.ok r) ∈ labels →
          (Respects s₁.sender.db s₂.sender.db c.op (c.jail, ip) ↔
            Agrees call.claims c.op (c.jail, ip) ∨ Overtaken s₀.sender.db c.op (c.jail, ip))) ∧
        ∀ now ban_uuid event_uuid, .transaction c now ban_uuid event_uuid (.ok r) ∈ labels →
          ¬ Overtaken s₀.sender.db c.op (c.jail, ip) := by
  constructor
  · rintro ⟨a, ha, b, hb, hissued⟩
    obtain ⟨p, hp⟩ := Option.isSome_iff_exists.mp hissued
    refine h.race (List.ne_nil_of_mem (a := p) ?_)
    exact List.mem_filterMap.mpr ⟨b, List.mem_filterMap.mpr ⟨a, ha, hb⟩, hp⟩
  · intro p hresult c ip r hip
    refine ⟨fun _ => ?_, fun now ban_uuid event_uuid ha => h.not_overtaken hresult ha hip⟩
    have hbefore := h.claims hresult (c.jail, ip)
    have hafter := h.answered hresult (c.jail, ip)
    cases hop : c.op with
    | ban =>
      rw [Respects, Agrees, Overtaken, hbefore, ← hafter]
      cases is_active s₀.sender.db (c.jail, ip) <;> simp
    | unban =>
      rw [Respects, Agrees, Overtaken, hbefore, ← hafter]
      cases is_active s₀.sender.db (c.jail, ip) <;> simp

/-! ## A ban that is repeated in the window

The hook bans an address whose claim is active, which writes no event. Fail2Ban was asked when it
had no ban of the address, and the snapshot releases it. -/

/-- A hook that bans the address. -/
def sample_hook : HookCall := ⟨.ban, "sshd".toList, "203.0.113.7".toList⟩

def sample_recorded : Except SenderError (Option EventPayload) :=
  .ok (some (sample_event "sshd".toList "203.0.113.7".toList))

theorem sample_hook_commits : Step sample_sender State.initial
    (.enqueue sample_hook.op.text sample_hook.jail sample_hook.ip 0 sample_uuid sample_uuid'
      sample_recorded) sample_banned := sample_banned_step

/-- Its transaction is over, and it has not returned. -/
theorem sample_over_reachable : Run (HookStep sample_sender) Hooked.initial
    [.began sample_hook, .transaction sample_hook 0 sample_uuid sample_uuid' sample_recorded]
    ⟨sample_banned, [.over sample_hook sample_recorded]⟩ :=
  Run.cons (HookStep.begin sample_hook) (Run.single (@HookStep.transaction sample_sender
    ⟨State.initial, [.begun sample_hook]⟩ [] [] sample_hook 0 sample_uuid sample_uuid' sample_recorded
    sample_banned rfl sample_hook_commits))

theorem sample_hook_returns : HookStep sample_sender
    ⟨sample_banned, [.over sample_hook sample_recorded]⟩ (.returned sample_hook sample_recorded)
    ⟨sample_banned, []⟩ :=
  @HookStep.returns sample_sender ⟨sample_banned, [.over sample_hook sample_recorded]⟩ [] [] sample_hook
    sample_recorded rfl

/-- The snapshot that `enqueue_snapshot` writes then. -/
theorem sample_commit (claims : List EnumeratedClaim) (normalized : List SnapshotClaim)
    (p : SnapshotPayload)
    (h : (commit_snapshot sample_sender sample_banned.db normalized (some 1) 2
      sample_snapshot_uuid).1 = .ok p) :
    ∃ s : State, HookStep sample_sender
        ⟨{ sample_banned with calls := [⟨claims, some 1, [], normalized⟩] }, []⟩
        (.sender (.commit ⟨claims, some 1, [], normalized⟩ 2 sample_snapshot_uuid (.ok p))) ⟨s, []⟩ ∧
      s.db = (commit_snapshot sample_sender sample_banned.db normalized (some 1) 2
        sample_snapshot_uuid).2 :=
  ⟨_, HookStep.sender rfl (@Step.commit sample_sender _ [] [] _ _ _ _ _ rfl rfl (Prod.ext h rfl)), rfl⟩

/-- The hook returns after the command has read the number. Where Fail2Ban's answer lists its address,
the snapshot keeps it. -/
theorem snapshot_respects_listed : ∃ labels s₁ call p s₂,
    Window sample_sender ⟨sample_banned, [.over sample_hook sample_recorded]⟩
        (.returned sample_hook sample_recorded :: labels) s₁ call (.ok p) s₂ ∧
      Respects s₁.sender.db s₂.sender.db .ban ("sshd".toList, "203.0.113.7".toList) := by
  let claim : EnumeratedClaim := { jail := "sshd".toList, ip := "203.0.113.7".toList }
  let c : SnapshotClaim := ⟨"sshd".toList, sample_uuid.text, "203.0.113.7".toList⟩
  obtain ⟨s₂, hcommit, -⟩ := sample_commit [claim] [c] ⟨sample_snapshot_uuid.text, 2, [c]⟩ (by decide)
  have hbegin : HookStep sample_sender ⟨sample_banned, []⟩ (.sender (.begin_snapshot [claim] (some 1)))
      ⟨{ sample_banned with calls := [⟨[claim], some 1, [claim], []⟩] }, []⟩ :=
    HookStep.sender rfl (Step.begin_snapshot sample_banned [claim] (some 1))
  have hloop : HookStep sample_sender
      ⟨{ sample_banned with calls := [⟨[claim], some 1, [claim], []⟩] }, []⟩
      (.sender (.normalize sample_snapshot_uuid))
      ⟨{ sample_banned with calls := [⟨[claim], some 1, [], [c]⟩] }, []⟩ :=
    HookStep.sender rfl (@Step.normalize sample_sender _ [] [] ⟨[claim], some 1, [claim], []⟩ claim []
      [c] sample_snapshot_uuid rfl rfl (by decide))
  have hwindow : Window sample_sender ⟨sample_banned, [.over sample_hook sample_recorded]⟩
      (.returned sample_hook sample_recorded ::
        [.sender (.begin_snapshot [claim] (some 1)), .sender (.normalize sample_snapshot_uuid)])
      _ ⟨[claim], some 1, [], [c]⟩ (.ok ⟨sample_snapshot_uuid.text, 2, [c]⟩) ⟨s₂, []⟩ :=
    ⟨⟨_, sample_over_reachable⟩,
      Run.cons sample_hook_returns (Run.cons hbegin (Run.single hloop)), by decide,
      ⟨_, _, hcommit⟩⟩
  refine ⟨_, _, _, _, _, hwindow, ?_⟩
  exact (((snapshot_respects_iff sample_sender _ _ _ _ _ _ hwindow).2 _ rfl sample_hook
    "203.0.113.7".toList (some (sample_event "sshd".toList "203.0.113.7".toList)) (by decide)).1
      List.mem_cons_self).mpr (.inl (List.mem_singleton.mpr (by decide)))

/-- Fail2Ban has no ban when it is asked and bans the address again before the snapshot is
written. The hook's `enqueue` returns, no `SnapshotRace` is raised and the snapshot releases
the address. -/
theorem banned_again_released : ∃ s,
    enumerate_permanent_jails (sample_config "sshd" valid_sshd) (fun _ => some ⟨0, []⟩) = .ok [] ∧
    Window sample_sender ⟨sample_banned, []⟩
      [.began sample_hook, .transaction sample_hook 1 sample_snapshot_uuid sample_snapshot_uuid (.ok none),
        .returned sample_hook (.ok none), .sender (.begin_snapshot [] (some 1))]
      ⟨{ sample_banned with calls := [⟨[], some 1, [], []⟩] }, []⟩ ⟨[], some 1, [], []⟩
      (.ok ⟨sample_snapshot_uuid.text, 2, []⟩) s ∧
    ¬ Respects sample_banned.db s.sender.db .ban ("sshd".toList, "203.0.113.7".toList) := by
  obtain ⟨s, hcommit, hdb⟩ := sample_commit [] [] ⟨sample_snapshot_uuid.text, 2, []⟩ (by decide)
  have hrepeat : Step sample_sender sample_banned
      (.enqueue sample_hook.op.text sample_hook.jail sample_hook.ip 1 sample_snapshot_uuid
        sample_snapshot_uuid (.ok none)) sample_banned := Step.enqueue (Prod.ext (by decide) rfl)
  have htransaction := @HookStep.transaction sample_sender ⟨sample_banned, [.begun sample_hook]⟩ [] []
    sample_hook 1 sample_snapshot_uuid sample_snapshot_uuid (.ok none) sample_banned rfl hrepeat
  have hreturn := @HookStep.returns sample_sender ⟨sample_banned, [.over sample_hook (.ok none)]⟩ [] []
    sample_hook (.ok none) rfl
  have hbegin := @HookStep.sender sample_sender ⟨sample_banned, []⟩ _ _ rfl
    (Step.begin_snapshot sample_banned [] (some 1))
  refine ⟨⟨s, []⟩, by decide, ⟨⟨_, sample_over_reachable.snoc sample_hook_returns⟩,
    Run.cons (HookStep.begin sample_hook) (Run.cons htransaction (Run.cons hreturn (Run.single hbegin))),
    by decide, ⟨2, sample_snapshot_uuid, hcommit⟩⟩, not_not.mpr ⟨by decide, ?_⟩⟩
  rw [hdb]
  decide

end F2bguard.Sender
