/-
The identities a sender hands out.

Every `ban_id` is drawn for one pair `(jail, ip)` and stays with it: in the table of claims,
in a snapshot that is being put together and in every payload that was issued. Where the
UUIDs drawn are distinct, an identity therefore never stands for two pairs, and no two
payloads have one id (`Distinct`).
-/
import F2bguard.Replica

set_option autoImplicit false

namespace F2bguard.Sender

open F2bguard.PyText F2bguard.PyJson F2bguard.Ipaddress F2bguard.Uuid F2bguard.Claims
open F2bguard.Tables F2bguard.Runs

/-- The UUIDs drawn in a step. A turn of the loop over the claims draws one when there is no
identity to reuse; where there is one, the label's UUID is not used. -/
def Label.drawn : Label → List Text
  | .enqueue _ _ _ _ ban_uuid event_uuid (.ok (some p)) =>
      match p.op with
      | .ban => [ban_uuid.text, event_uuid.text]
      | .unban => [event_uuid.text]
  | .normalize ban_uuid => [ban_uuid.text]
  | .commit _ _ snapshot_uuid (.ok _) => [snapshot_uuid.text]
  | _ => []

/-- An identity that is in use, with what it stands for. It is in use from the moment it was
drawn: a command that has drawn one has it before any table does. -/
inductive Bound (log : List Payload) (s : State) : Text → Text × Text → Prop
  | claim {pair : Text × Text} {r : ClaimRow} (h : claim_of s.db pair = some r) :
      Bound log s r.ban_id pair
  | call {call : SnapshotCall} {c : SnapshotClaim} (hcall : call ∈ s.calls)
      (hc : c ∈ call.normalized) : Bound log s c.ban_id c.pair
  | issued {p : Payload} {ban_id : Text} {pair : Text × Text} (hp : p ∈ log)
      (h : (ban_id, pair) ∈ p.bindings) : Bound log s ban_id pair

/-- Everything that is in use was drawn, for one thing each. Numbers of UUIDs are not compared
between senders; each draws its own. -/
structure Distinct (drawn : List Text) (log : List Payload) (s : State) : Prop where
  bound : ∀ b x, Bound log s b x → b ∈ drawn
  one : ∀ b x y, Bound log s b x → Bound log s b y → x = y
  ids : ∀ p ∈ log, p.id ∈ drawn
  ids_nodup : (log.map Payload.id).Nodup
  /-- the claims of `enumerate_permanent_jails` name no identities -/
  unnamed : ∀ call ∈ s.calls, ∀ claim ∈ call.claims, claim.ban_id = none

theorem Distinct.initial (drawn : List Text) : Distinct drawn [] State.initial := by
  have hnone : ∀ b x, ¬ Bound [] State.initial b x := by
    intro b x h
    cases h with
    | claim h => cases h
    | call hcall hc => cases hcall
    | issued hp h => cases hp
  exact ⟨fun b x h => absurd h (hnone b x), fun b x y h => absurd h (hnone b x),
    fun p hp => (by cases hp), List.nodup_nil, fun call hcall => (by cases hcall)⟩

theorem Sound.consistent {env : Env} {drawn : List Text} {log : List Payload} {done : List ℕ}
    {s : State} (h : Sound env log done s) (hdistinct : Distinct drawn log s) : Consistent log := by
  have hlen := congrArg List.length h.seqs
  rw [List.length_map, List.length_range'] at hlen
  refine ⟨h.valid, ?_, hdistinct.ids_nodup, ?_⟩
  · rw [h.seqs, hlen]
  · intro p hp q hq b x y hx hy
    exact hdistinct.one b x y (Bound.issued hp hx) (Bound.issued hq hy)

/-- Identities come into use for one pair in a step, and only when they are drawn there. A step
that activates many claims at once uses identities that were in use before, or the one it drew. -/
def BindsOne (log log' : List Payload) (s s' : State) (drawn : List Text) : Prop :=
  ∃ u pair, ∀ b x, Bound log' s' b x → Bound log s b x ∨ (u ∈ drawn ∧ b = u ∧ x = pair)

theorem BindsOne.of_le {log log' : List Payload} {s s' : State} {drawn : List Text}
    (h : ∀ b x, Bound log' s' b x → Bound log s b x) : BindsOne log log' s s' drawn :=
  ⟨[], ([], []), fun b x hb => Or.inl (h b x hb)⟩

theorem bindsOne_enqueue {env : Env} {log : List Payload} {s : State} {op : Op} {jail ip : Text}
    {now : ℚ} {ban_uuid event_uuid : Uuid4} {p : EventPayload} {db : DB} {drawn : List Text}
    (h : Recorded env s.db op jail ip now ban_uuid event_uuid p db)
    (hdrawn : op = .ban → ban_uuid.text ∈ drawn) :
    BindsOne log (log ++ [.event p]) s { s with db } drawn := by
  -- the identity of the event is the one that was drawn or the one of the claim
  have hban : Bound log s p.ban_id (jail, ip) ∨
      (ban_uuid.text ∈ drawn ∧ p.ban_id = ban_uuid.text) := by
    have hid := h.ban_id
    cases op with
    | ban => exact Or.inr ⟨hdrawn rfl, hid.2⟩
    | unban => exact Or.inl (Bound.claim hid)
  have hpair : ∀ b x, b = p.ban_id → x = (jail, ip) →
      Bound log s b x ∨ (ban_uuid.text ∈ drawn ∧ b = ban_uuid.text ∧ x = (jail, ip)) := by
    rintro b x rfl rfl
    exact hban.imp id (fun h => ⟨h.1, h.2, rfl⟩)
  refine ⟨ban_uuid.text, (jail, ip), fun b x hb => ?_⟩
  cases hb with
  | @claim pair r hrow =>
    rw [h.claims x] at hrow
    split at hrow
    · rename_i heq
      cases hrow
      exact hpair _ _ rfl heq.symm
    · exact Or.inl (Bound.claim hrow)
  | call hcall hc => exact Or.inl (Bound.call hcall hc)
  | issued hq hbinding =>
    rcases List.mem_append.mp hq with hq | hq
    · exact Or.inl (Bound.issued hq hbinding)
    · cases List.mem_singleton.mp hq
      cases List.mem_singleton.mp hbinding
      refine hpair _ _ rfl ?_
      rw [h.payload]

theorem bindsOne_normalize {log : List Payload} {s : State} {before after : List SnapshotCall}
    {call : SnapshotCall} {claim : EnumeratedClaim} {rest : List EnumeratedClaim}
    {normalized : List SnapshotClaim} {ban_uuid : Uuid4} (hvalid : ClaimsValid s.db)
    (hcalls : s.calls = before ++ call :: after) (hnone : claim.ban_id = none)
    (h : normalize_claim s.db call.normalized claim ban_uuid = .ok normalized) :
    BindsOne log log s
      { s with calls := before ++ { call with rest, normalized } :: after } [ban_uuid.text] := by
  obtain ⟨c, rfl, hc⟩ := normalize_claim_spec hvalid h
  refine ⟨ban_uuid.text, c.pair, fun b x hb => ?_⟩
  cases hb with
  | claim hrow => exact Or.inl (Bound.claim hrow)
  | @call call' c' hcall hmem =>
    rcases List.mem_append.mp hcall with hcall | hcall
    · exact Or.inl (Bound.call (by rw [hcalls]; exact List.mem_append_left _ hcall) hmem)
    rcases List.mem_cons.mp hcall with rfl | hcall
    · rcases List.mem_append.mp hmem with hmem | hmem
      · exact Or.inl (Bound.call (by rw [hcalls]; simp) hmem)
      · cases List.mem_singleton.mp hmem
        have hban := hc.ban_id hnone
        cases hactive : active_claim s.db c.pair with
        | none =>
          rw [hactive] at hban
          exact Or.inr ⟨List.mem_singleton.mpr rfl, hban, rfl⟩
        | some r =>
          rw [hactive] at hban
          have hrow := (active_claim_eq_some.mp hactive).1
          rw [show c.ban_id = r.ban_id from hban]
          exact Or.inl (Bound.claim hrow)
    · exact Or.inl (Bound.call (by rw [hcalls]; simp [hcall]) hmem)
  | issued hp hbinding => exact Or.inl (Bound.issued hp hbinding)

theorem bound_commit {env : Env} {log : List Payload} {s : State}
    {before after : List SnapshotCall} {call : SnapshotCall} {now : ℚ} {snapshot_uuid : Uuid4}
    {p : SnapshotPayload} {db : DB} (hcalls : s.calls = before ++ call :: after)
    (h : Committed env s.db call.normalized call.expected_seq now snapshot_uuid p db) :
    ∀ b x, Bound (log ++ [.snapshot p]) { s with db, calls := before ++ after } b x →
      Bound log s b x := by
  -- each claim of the snapshot has the identity of the active claim or of the loop
  have hclaims : ∀ c ∈ p.claims, Bound log s c.ban_id c.pair := by
    intro c hc
    obtain ⟨c', hc', rfl⟩ := List.mem_map.mp (h.claims.mem_iff.mp hc)
    rw [reuse_ban_id_eq]
    cases hactive : active_claim s.db c'.pair with
    | none => exact Bound.call (by rw [hcalls]; simp) hc'
    | some r =>
      have hrow := (active_claim_eq_some.mp hactive).1
      exact Bound.claim hrow
  intro b x hb
  cases hb with
  | @claim pair r hrow =>
    by_cases hmem : x ∈ call.normalized.map SnapshotClaim.pair
    · rw [← h.pairs.mem_iff, List.mem_map] at hmem
      obtain ⟨c, hc, rfl⟩ := hmem
      rw [h.activated c hc] at hrow
      cases hrow
      exact hclaims c hc
    · rw [h.others x hmem] at hrow
      obtain ⟨r', hr', rfl⟩ := Option.map_eq_some_iff.mp hrow
      exact Bound.claim (r := r') hr'
  | call hcall hc =>
    refine Bound.call ?_ hc
    rw [hcalls]
    rcases List.mem_append.mp hcall with hcall | hcall
    · exact List.mem_append_left _ hcall
    · exact List.mem_append_right _ (List.mem_cons_of_mem _ hcall)
  | issued hq hbinding =>
    rcases List.mem_append.mp hq with hq | hq
    · exact Bound.issued hq hbinding
    · cases List.mem_singleton.mp hq
      obtain ⟨c, hc, heq⟩ := List.mem_map.mp hbinding
      cases heq
      exact hclaims c hc

/-- A step keeps identities apart when the UUIDs it draws are new. -/
theorem Distinct.after_binds {drawn new : List Text} {log : List Payload} {s s' : State}
    {ps : List Payload} (h : Distinct drawn log s) (hbinds : BindsOne log (log ++ ps) s s' new)
    (hfresh : ∀ u ∈ new, u ∉ drawn)
    (hids : ps = [] ∨ ∃ p, ps = [p] ∧ p.id ∈ new)
    (hunnamed : ∀ call ∈ s'.calls, ∀ claim ∈ call.claims, claim.ban_id = none) :
    Distinct (new ++ drawn) (log ++ ps) s' := by
  obtain ⟨u, pair, hbinds⟩ := hbinds
  refine ⟨?_, ?_, ?_, ?_, hunnamed⟩
  · intro b x hb
    rcases hbinds b x hb with hb | ⟨hu, rfl, -⟩
    · exact List.mem_append_right _ (h.bound b x hb)
    · exact List.mem_append_left _ hu
  · intro b x y hx hy
    -- an identity that is new belongs to the one pair it was drawn for
    rcases hbinds b x hx with hx | ⟨hu, rfl, rfl⟩ <;> rcases hbinds b y hy with hy | ⟨hu', hb, rfl⟩
    · exact h.one b x y hx hy
    · rw [hb] at hx
      exact absurd (h.bound _ _ hx) (hfresh _ hu')
    · exact absurd (h.bound _ _ hy) (hfresh _ hu)
    · rfl
  · intro p hp
    rcases List.mem_append.mp hp with hp | hp
    · exact List.mem_append_right _ (h.ids p hp)
    · rcases hids with rfl | ⟨q, rfl, hq⟩
      · cases hp
      · rw [List.mem_singleton.mp hp]
        exact List.mem_append_left _ hq
  · rw [List.map_append, List.nodup_append]
    rcases hids with rfl | ⟨q, rfl, hq⟩
    · exact ⟨h.ids_nodup, List.nodup_nil, fun a _ b hb => (by cases hb)⟩
    · refine ⟨h.ids_nodup, List.nodup_singleton _, ?_⟩
      intro a ha b hb heq
      obtain ⟨p, hp, rfl⟩ := List.mem_map.mp ha
      rw [List.map_singleton, List.mem_singleton] at hb
      rw [hb] at heq
      exact hfresh _ hq (heq ▸ h.ids p hp)

/-- Where no payload is written, the claims stay and calls only come and go, nothing comes
into use. -/
theorem Distinct.after_quiet {drawn new : List Text} {log : List Payload} {s s' : State}
    (h : Distinct drawn log s) (hclaims : s'.db.claims = s.db.claims)
    (hcalls : ∀ call ∈ s'.calls, call ∈ s.calls ∨
      (call.normalized = [] ∧ ∀ claim ∈ call.claims, claim.ban_id = none))
    (hfresh : ∀ u ∈ new, u ∉ drawn) : Distinct (new ++ drawn) (log ++ []) s' := by
  refine h.after_binds (BindsOne.of_le ?_) hfresh (Or.inl rfl) ?_
  · intro b x hb
    rw [List.append_nil] at hb
    cases hb with
    | claim hrow =>
      rw [claim_of, hclaims] at hrow
      exact Bound.claim hrow
    | call hcall hc =>
      rcases hcalls _ hcall with hcall | ⟨hnil, -⟩
      · exact Bound.call hcall hc
      · rw [hnil] at hc
        cases hc
    | issued hp hbinding => exact Bound.issued hp hbinding
  · intro call hcall
    rcases hcalls call hcall with hcall | ⟨-, hnone⟩
    · exact h.unnamed call hcall
    · exact hnone

/-- What the steps have to do with the claims they are given. -/
def Label.Unnamed : Label → Prop
  | .begin_snapshot claims _ => ∀ claim ∈ claims, claim.ban_id = none
  | _ => True

theorem distinct_step {env : Env} {drawn : List Text} {log : List Payload} {done : List ℕ}
    {s s' : State} {a : Label} (hsound : Sound env log done s) (h : Distinct drawn log s)
    (hstep : Step env s a s') (hunnamed : a.Unnamed) (hfresh : ∀ u ∈ a.drawn, u ∉ drawn) :
    Distinct (a.drawn ++ drawn) (log ++ a.issued.toList) s' := by
  -- no call has got a new claim
  have hkeep : ∀ {calls : List SnapshotCall}, (∀ call ∈ calls, call ∈ s.calls) →
      ∀ call ∈ calls, call ∈ s.calls ∨
        (call.normalized = [] ∧ ∀ claim ∈ call.claims, claim.ban_id = none) :=
    fun hsub call hcall => Or.inl (hsub call hcall)
  cases hstep with
  | @enqueue op jail ip now ban_uuid event_uuid result db hcall =>
    rcases enqueue_outcome hsound.claims hcall with ⟨e, rfl, rfl⟩ | ⟨op', ip', -, -, -, -, hout⟩
    · exact h.after_quiet rfl (hkeep fun _ h => h) hfresh
    · cases hout with
      | refused e => exact h.after_quiet rfl (hkeep fun _ h => h) hfresh
      | repeated hrep => exact h.after_quiet rfl (hkeep fun _ h => h) hfresh
      | @recorded p db' hrec =>
        have hop : p.op = op' := by rw [hrec.payload]
        have hid : p.event_id = event_uuid.text := by rw [hrec.payload]
        -- a ban draws the identity of its claim, an unban uses the one that is there
        refine h.after_binds (bindsOne_enqueue hrec ?_) hfresh (Or.inr ⟨_, rfl, ?_⟩) h.unnamed
        · rintro rfl
          simp [Label.drawn, hop]
        · change p.event_id ∈ _
          rw [hid]
          cases hp : p.op <;> simp [Label.drawn, hp]
  | begin_snapshot claims expected_seq =>
    refine h.after_quiet rfl ?_ hfresh
    intro call hcall
    rcases List.mem_cons.mp hcall with rfl | hcall
    · exact Or.inr ⟨rfl, hunnamed⟩
    · exact Or.inl hcall
  | @normalize before after call claim rest normalized ban_uuid hcalls hrest hn =>
    have hmem : call ∈ s.calls := by
      rw [hcalls]
      simp
    obtain ⟨read, hread, -⟩ := (hsound.calls call hmem).progress
    -- the snapshot command names no identity
    have hnone : claim.ban_id = none := by
      refine h.unnamed call hmem claim ?_
      rw [hread, hrest]
      simp
    have hall := h.unnamed
    rw [hcalls, List.forall_mem_append, List.forall_mem_cons] at hall
    refine h.after_binds ?_ hfresh (Or.inl rfl) ?_
    · rw [show (Label.normalize ban_uuid).issued.toList = [] from rfl, List.append_nil]
      exact bindsOne_normalize hsound.claims hcalls hnone hn
    · rw [List.forall_mem_append, List.forall_mem_cons]
      exact hall
  | @commit before after call now snapshot_uuid result db hcalls hrest hcommit =>
    have hcall : call.Sound := hsound.calls call (by rw [hcalls]; simp)
    have hsub : ∀ call ∈ before ++ after, call ∈ s.calls := by
      rw [hcalls]
      exact fun x hx => (List.sublist_cons_self call after).append_left before |>.subset hx
    rcases commit_outcome hcall.pairs hcommit with ⟨e, rfl, rfl⟩ | ⟨p, rfl, hcom⟩
    · exact h.after_quiet rfl (hkeep hsub) hfresh
    · refine h.after_binds (BindsOne.of_le (bound_commit hcalls hcom)) hfresh
        (Or.inr ⟨_, rfl, ?_⟩) (fun call hcall => h.unnamed call (hsub call hcall))
      change p.snapshot_id ∈ _
      rw [hcom.snapshot_id]
      exact List.mem_singleton.mpr rfl
  | @abandon before after call hcalls =>
    refine h.after_quiet rfl (hkeep ?_) hfresh
    rw [hcalls]
    exact fun x hx => (List.sublist_cons_self call after).append_left before |>.subset hx
  | @finish row now delivered hsending =>
    exact h.after_quiet (by cases delivered <;> rfl) (hkeep fun _ h => h) hfresh
  | _ => exact h.after_quiet rfl (hkeep fun _ h => h) hfresh

end F2bguard.Sender
