/-
A batch is its events, one after the other.

`apply_events` checks sequence, history and limits once for a whole batch; with one event for
each call they are checked each time. For a batch above `last_seq` whose identities are new both
ways take the same turns: the store a number of calls has led to and the tables inside the
transaction after as many turns have the same claims, and the rest of the batch is still above
the one's `last_seq` and fits the other's history (`Following`, `Following.step`). The only
difference is that the calls check the limits after each event.
-/
import F2bguard.History

set_option autoImplicit false

namespace F2bguard.Store

open F2bguard.PyText F2bguard.PyJson F2bguard.Claims F2bguard.Tables F2bguard.Lifecycle
open F2bguard.SideBySide

/-! ## One event for each call

A batch may be sent in one call or in many. Sending it in many takes a limit check for each event,
and a time for each. -/

/-- A call of `apply_events` with a single event. -/
def apply_one (env : Env) (client_id : Text) (limit : ℕ) (db : DB) (posted : Event × ℚ) :
    Except StoreError DB :=
  let r := apply_events env db client_id [posted.1] limit posted.2
  r.1.map (fun _ => r.2)

/-- The events of a batch one for each call, in order, each at its time, as long as none is
refused. -/
def apply_singly (env : Env) (client_id : Text) (limit : ℕ) (db : DB)
    (posted : List (Event × ℚ)) : Except StoreError DB :=
  posted.foldlM (apply_one env client_id limit) db

/-- The counts are within both limits. -/
def WithinLimits (db : DB) (client_id : Text) (limit : ℕ) : Prop :=
  claim_count db client_id ≤ limit ∧ total_claims db ≤ MAX_TOTAL_CLAIMS

theorem check_limits_eq_ok {db : DB} {client_id : Text} {limit : ℕ} :
    check_limits db client_id limit = .ok () ↔ WithinLimits db client_id limit := by
  unfold check_limits WithinLimits
  split
  · rename_i hcount
    exact ⟨fun h => (by cases h), fun h => absurd hcount (not_lt.mpr h.1)⟩
  · split
    · rename_i htotal
      exact ⟨fun h => (by cases h), fun h => absurd htotal (not_lt.mpr h.2)⟩
    · exact ⟨fun _ => ⟨by omega, by omega⟩, fun _ => rfl⟩

theorem SameClaims.within_limits {db db' : DB} (h : SameClaims db db') {c : Text} {limit : ℕ} :
    WithinLimits db c limit ↔ WithinLimits db' c limit := by
  rw [WithinLimits, WithinLimits, h.claim_count, h.total_claims]

section Single

variable {env : Env} {c : Text} {limit : ℕ} {db db' : DB} {e : Event} {now : ℚ}

/-- A new event: what is left of the call is its turn of the loop and the check. -/
theorem apply_one_eq (hnew : last_seq db c < e.seq) (hunused : prior_event db c e = none) :
    apply_one env c limit db (e, now) =
      (apply_event env c now (ensure_client db c now) e).bind (fun x =>
        (check_limits x c limit).map (fun _ =>
          truncate_events env (set_last_seq x c e.seq now) c)) := by
  have hloop : [e].foldlM (apply_event env c now) (ensure_client db c now) =
      apply_event env c now (ensure_client db c now) e := by
    rw [List.foldlM_cons]
    cases apply_event env c now (ensure_client db c now) e <;> rfl
  unfold apply_one
  rw [apply_events_new env (List.cons_ne_nil e []) (List.isChain_singleton _)
    (List.forall_mem_singleton.mpr hnew) (List.forall_mem_singleton.mpr hunused),
    apply_fresh_events, hloop]
  cases apply_event env c now (ensure_client db c now) e with
  | error err => rfl
  | ok x =>
    dsimp only [Except.bind]
    cases check_limits x c limit <;> rfl

/-- A new event that is not refused is fresh. -/
theorem apply_one_fresh (hnew : last_seq db c < e.seq)
    (h : apply_one env c limit db (e, now) = .ok db') :
    Fresh env db ⟨c, .events [e], limit, now⟩ db' := by
  obtain ⟨result, hresult, hdb⟩ := map_eq_ok.mp h
  have houtcome := @perform_outcome env db db' ⟨c, .events [e], limit, now⟩ (.ok result)
    (Prod.ext hresult hdb)
  generalize hx : (Except.ok result : Except StoreError ApplyResult) = x at houtcome
  cases houtcome with
  | refused err => cases hx
  | known duplicate hne hold hdb =>
    have := hold e.seq List.mem_cons_self
    exact absurd hnew (not_lt.mpr this)
  | fresh h => exact h

end Single

/-! ## Side by side

The calls work on the store and the loop on the tables of its transaction. What they share is said
by `Following`; the histories differ, since the calls truncate theirs. -/

/-- The rest of a batch is new. -/
structure NewEvents (db : DB) (c : Text) (es : List Event) : Prop where
  below : HistoryBelow db c
  newer : ∀ e ∈ es, last_seq db c < e.seq
  unused : ∀ e ∈ es, prior_event db c e = none
  increasing : seqs_increase es
  ids : (es.map Event.event_id).Nodup

/-- The store `x` after some calls and the tables `y` inside the transaction after as many
turns, before the rest of the batch. -/
structure Following (c : Text) (es : List Event) (x y : DB) : Prop where
  claims : SameClaims x y
  new : NewEvents x c es
  fits : Insertable y c es
  others : ∀ c', c' ≠ c → last_seq x c' = last_seq y c'

section Following

variable {env : Env} {c : Text} {limit : ℕ} {e : Event} {es : List Event} {x x' y y' : DB}
  {now now' : ℚ}

theorem NewEvents.tail (h : NewEvents x c (e :: es))
    (hfresh : Fresh env x ⟨c, .events [e], limit, now⟩ x') : NewEvents x' c es := by
  have hseqs := List.pairwise_cons.mp (List.pairwise_map.mp (seqs_increase_iff.mp h.increasing))
  have hids := List.pairwise_cons.mp (List.pairwise_map.mp h.ids)
  refine ⟨hfresh.history_below h.below, fun e' he' => ?_, fun e' he' => ?_,
    seqs_increase_iff.mpr (List.pairwise_map.mpr hseqs.2), List.pairwise_map.mpr hids.2⟩
  · rw [hfresh.last_seq, if_pos rfl]
    exact hseqs.1 e' he'
  · rw [prior_event, Table.lookup_eq_none]
    intro r hr
    rcases List.mem_append.mp (hfresh.events.subset hr) with hold | hnew
    · exact Table.lookup_eq_none.mp (h.unused e' (List.mem_cons_of_mem _ he')) r hold
    · rw [show r = event_row env c now e from List.mem_singleton.mp hnew]
      exact fun hid => hids.1 e' he' (congrArg Prod.snd hid)

/-- The call and the turn, without the check of the limits. -/
theorem Following.alike (h : Following c (e :: es) x y) (env : Env) (now now' : ℚ) :
    Alike SameClaims (apply_event env c now (ensure_client x c now) e)
      (apply_event env c now' y e) := by
  have hins : Insertable (ensure_client x c now) c (e :: es) := insertable_of_new
    (client_exists_ensure_client x c now) (h.new.below.ensure_client now)
    (by rw [last_seq_ensure_client]; exact h.new.newer)
    (fun e' he' => (prior_event_ensure_client x c c now e').trans (h.new.unused e' he'))
    h.new.increasing h.new.ids
  have hclaims : SameClaims (ensure_client x c now) y := by
    rw [SameClaims, claim_entries, ensure_client_claims]
    exact h.claims
  exact (apply_event_alike env env now now' hclaims hins h.fits).imp (fun _ _ h => h.1)

theorem Following.after (h : Following c (e :: es) x y)
    (hone : apply_one env c limit x (e, now) = .ok x')
    (hturn : apply_event env c now' y e = .ok y') (hclaims : SameClaims x' y') :
    Following c es x' y' := by
  have hfresh := apply_one_fresh (h.new.newer e List.mem_cons_self) hone
  refine ⟨hclaims, h.new.tail hfresh, h.fits.step hturn, fun c' hc' => ?_⟩
  rw [hfresh.last_seq, if_neg hc', h.others c' hc', last_seq, last_seq,
    (apply_event_spec hturn).client_state]

/-- A call that is not refused is a turn that leaves the counts within the limits. -/
theorem Following.step (h : Following c (e :: es) x y) (env : Env) (limit : ℕ) (now now' : ℚ) :
    (∀ x', apply_one env c limit x (e, now) = .ok x' →
      ∃ y', apply_event env c now' y e = .ok y' ∧ WithinLimits y' c limit ∧
        Following c es x' y') ∧
      ∀ y', apply_event env c now' y e = .ok y' → WithinLimits y' c limit →
        ∃ x', apply_one env c limit x (e, now) = .ok x' ∧ Following c es x' y' := by
  have heq := @apply_one_eq env c limit x e now (h.new.newer e List.mem_cons_self)
    (h.new.unused e List.mem_cons_self)
  have halike := h.alike env now now'
  refine ⟨fun x' hone => ?_, fun y' hturn hlimits => ?_⟩
  · have hone' := hone
    rw [heq] at hone'
    obtain ⟨x1, hturn1, hone'⟩ := bind_eq_ok.mp hone'
    obtain ⟨_, hlimits, rfl⟩ := map_eq_ok.mp hone'
    rw [hturn1] at halike
    obtain ⟨y', hturn, hclaims⟩ := halike.of_ok
    exact ⟨y', hturn, hclaims.within_limits.mp (check_limits_eq_ok.mp hlimits),
      h.after hone hturn hclaims⟩
  · rw [hturn] at halike
    cases hturn1 : apply_event env c now (ensure_client x c now) e with
    | error err =>
      rw [hturn1] at halike
      cases halike
    | ok x1 =>
      rw [hturn1, alike_ok] at halike
      have hlimits1 := check_limits_eq_ok.mpr (halike.within_limits.mpr hlimits)
      have hone : apply_one env c limit x (e, now) =
          .ok (truncate_events env (set_last_seq x1 c e.seq now) c) := by
        rw [heq, hturn1]
        dsimp only [Except.bind]
        rw [hlimits1]
        rfl
      exact ⟨_, hone, h.after hone hturn halike⟩

/-- The calls that are not refused are a run of the loop. -/
theorem Following.loop_of_singly {posted : List (Event × ℚ)} : ∀ {x y : DB},
    Following c (posted.map Prod.fst) x y → apply_singly env c limit x posted = .ok x' →
    ∀ now', ∃ y', (posted.map Prod.fst).foldlM (apply_event env c now') y = .ok y' ∧
        Following c [] x' y' ∧ (posted ≠ [] → WithinLimits y' c limit) := by
  induction posted with
  | nil =>
    intro x y h hrun now'
    cases hrun
    exact ⟨y, rfl, h, fun hne => absurd rfl hne⟩
  | cons first rest ih =>
    intro x y h hrun now'
    unfold apply_singly at hrun
    rw [List.foldlM_cons] at hrun
    obtain ⟨x1, hone, hrest⟩ := bind_eq_ok.mp hrun
    obtain ⟨y1, hturn, hlimits, hfollow⟩ := (h.step env limit first.2 now').1 x1 hone
    obtain ⟨y', hloop, hend, hlimits'⟩ := ih hfollow hrest now'
    refine ⟨y', ?_, hend, fun _ => ?_⟩
    · rw [List.map_cons, List.foldlM_cons, hturn]
      exact hloop
    · by_cases hne : rest = []
      · rw [hne] at hloop
        cases hloop
        exact hlimits
      · exact hlimits' hne

/-- A run of the loop whose counts are within the limits all along is one of the calls. -/
theorem Following.singly_of_loop {posted : List (Event × ℚ)} : ∀ {x y : DB},
    Following c (posted.map Prod.fst) x y →
    (posted.map Prod.fst).foldlM (apply_event env c now') y = .ok y' →
    (∀ before z, before ≠ [] → before <+: posted.map Prod.fst →
      before.foldlM (apply_event env c now') y = .ok z → WithinLimits z c limit) →
      ∃ x', apply_singly env c limit x posted = .ok x' ∧ Following c [] x' y' := by
  induction posted with
  | nil =>
    intro x y h hloop _
    cases hloop
    exact ⟨x, rfl, h⟩
  | cons first rest ih =>
    intro x y h hloop hwithin
    rw [List.map_cons, List.foldlM_cons] at hloop
    obtain ⟨y1, hturn, hrest⟩ := bind_eq_ok.mp hloop
    have hlimits : WithinLimits y1 c limit := by
      refine hwithin [first.1] y1 (List.cons_ne_nil _ _) ⟨rest.map Prod.fst, rfl⟩ ?_
      rw [List.foldlM_cons, hturn]
      rfl
    obtain ⟨x1, hone, hfollow⟩ := (h.step env limit first.2 now').2 y1 hturn hlimits
    obtain ⟨x', hrun, hend⟩ := ih hfollow hrest (by
      intro before z _ hprefix hbefore
      refine hwithin (first.1 :: before) z (List.cons_ne_nil _ _) ?_ ?_
      · exact List.cons_prefix_cons.mpr ⟨rfl, hprefix⟩
      · rw [List.foldlM_cons, hturn]
        exact hbefore)
    refine ⟨x', ?_, hend⟩
    unfold apply_singly
    rw [List.foldlM_cons, hone]
    exact hrun

end Following

/-- After the calls the stored number is that of the last event. -/
theorem apply_singly_last_seq {env : Env} {c : Text} {limit : ℕ} {x' : DB}
    {posted : List (Event × ℚ)} : ∀ {x : DB}, NewEvents x c (posted.map Prod.fst) →
      apply_singly env c limit x posted = .ok x' →
        last_seq x' c = ((posted.map Prod.fst).map Event.seq).getLast?.getD (last_seq x c) := by
  induction posted with
  | nil =>
    intro x _ hrun
    cases hrun
    rfl
  | cons first rest ih =>
    intro x h hrun
    unfold apply_singly at hrun
    rw [List.foldlM_cons] at hrun
    obtain ⟨x1, hone, hrest⟩ := bind_eq_ok.mp hrun
    have hfresh := apply_one_fresh (h.newer first.1 List.mem_cons_self) hone
    have hseq : last_seq x1 c = first.1.seq := by
      rw [hfresh.last_seq, if_pos rfl]
      rfl
    rw [ih (h.tail hfresh) hrest, hseq, List.map_cons, List.map_cons, List.getLast?_cons]
    rfl

/-! ## The batch

Both directions: what the calls do one by one the batch does at once, and the other way round as
long as the counts stay within the limits. -/

/-- **A batch is its events.** Take a store that can be reached and a batch that was validated,
lies above `last_seq` and whose identities are not in the client's history. If its events are
accepted one for each call, whenever the calls are made, the batch is accepted. If the batch is
accepted and the counts after each of its events are within the limits, the calls are all
accepted. Either way the claims and sequence numbers of all clients end the same. If the batch is
refused, nothing has changed. -/
theorem batch_transparent (env : Env) (db : DB) (hreachable : Reachable env db) (c : Text)
    (raw : Json) (maximum : ℕ) (es : List Event) (hvalid : validate_events raw maximum = .ok es)
    (hnew : ∀ first ∈ es.head?, last_seq db c < first.seq)
    (hunused : ∀ e ∈ es, ∀ r ∈ db.events.rows, r.client_id = c → r.event_id ≠ e.event_id)
    (limit : ℕ) (now : ℚ) (posted : List (Event × ℚ)) (hposted : posted.map Prod.fst = es) :
    (∀ x, apply_singly env c limit db posted = .ok x →
      ∃ result y, apply_events env db c es limit now = (.ok result, y) ∧
        (∀ c', claim_set x c' = claim_set y c') ∧ ∀ c', last_seq x c' = last_seq y c') ∧
    (∀ result y, apply_events env db c es limit now = (.ok result, y) →
      (∀ before z, before ≠ [] → before <+: es →
        before.foldlM (apply_event env c now) (ensure_client db c now) = .ok z →
          WithinLimits z c limit) →
      ∃ x, apply_singly env c limit db posted = .ok x ∧
        (∀ c', claim_set x c' = claim_set y c') ∧ ∀ c', last_seq x c' = last_seq y c') ∧
    ∀ err y, apply_events env db c es limit now = (.error err, y) → y = db := by
  obtain ⟨hne, hinc, hids⟩ := validate_events_ok hvalid
  -- the first event has the least number
  have hnewer : ∀ e ∈ es, last_seq db c < e.seq := by
    cases es with
    | nil => exact absurd rfl hne
    | cons first rest =>
      have hfirst := hnew first rfl
      have hseqs := List.pairwise_cons.mp (List.pairwise_map.mp (seqs_increase_iff.mp hinc))
      exact List.forall_mem_cons.mpr ⟨hfirst, fun e he => hfirst.trans (hseqs.1 e he)⟩
  have hfree : ∀ e ∈ es, prior_event db c e = none := by
    intro e he
    rw [prior_event, Table.lookup_eq_none]
    intro r hr hid
    exact hunused e he r hr (congrArg Prod.fst hid) (congrArg Prod.snd hid)
  have hbelow := reachable_history_below hreachable c
  have hclient := client_exists_ensure_client db c now
  -- before the first event both ways have the same claims and numbers
  have hstart : Following c es db (ensure_client db c now) := by
    refine ⟨?_, ⟨hbelow, hnewer, hfree, hinc, hids⟩, ?_, fun c' _ => ?_⟩
    · rw [SameClaims, claim_entries, claim_entries, ensure_client_claims]
    · exact insertable_of_new hclient (hbelow.ensure_client now)
        (by rw [last_seq_ensure_client]; exact hnewer)
        (fun e he => (prior_event_ensure_client db c c now e).trans (hfree e he)) hinc hids
    · rw [last_seq_ensure_client]
  have hbatch := apply_events_new env hne hinc hnewer hfree limit now
  -- the same claims and numbers, once both ways have come to their ends
  have hend : ∀ {x y1 : DB}, apply_singly env c limit db posted = .ok x →
      es.foldlM (apply_event env c now) (ensure_client db c now) = .ok y1 →
      Following c [] x y1 →
        let y := truncate_events env (set_last_seq y1 c (es.getLast hne).seq now) c
        (∀ c', claim_set x c' = claim_set y c') ∧ ∀ c', last_seq x c' = last_seq y c' := by
    intro x y1 hrun hloop hfollow y
    refine ⟨hfollow.claims.claim_set, fun c' => ?_⟩
    have hlast := apply_singly_last_seq (hposted ▸ hstart.new) hrun
    rw [hposted, List.getLast?_map, List.getLast?_eq_some_getLast hne] at hlast
    rw [last_seq_truncate_events, last_seq_set_last_seq _ _ _ _ hfollow.fits.client]
    split
    · rename_i hc
      rw [hc]
      exact hlast
    · rename_i hc
      exact hfollow.others c' hc
  subst hposted
  refine ⟨fun x hrun => ?_, fun result y hok hwithin => ?_, fun err y herr => ?_⟩
  · -- one call for each event, then the batch
    obtain ⟨y1, hloop, hfollow, hlimits⟩ := hstart.loop_of_singly hrun now
    refine ⟨⟨true, false, false, ((posted.map Prod.fst).getLast hne).seq⟩, _, ?_, hend hrun hloop hfollow⟩
    rw [hbatch, apply_fresh_events, hloop]
    dsimp only [Except.bind]
    rw [check_limits_eq_ok.mpr (hlimits (fun h => hne (List.map_eq_nil_iff.mpr h)))]
    rfl
  · -- the batch, then one call for each event
    rw [hbatch] at hok
    obtain ⟨y1, hloop, -, -, rfl⟩ := apply_fresh_events_eq_ok (transaction_eq_ok.mp hok)
    obtain ⟨x, hrun, hfollow⟩ := hstart.singly_of_loop hloop hwithin
    exact ⟨x, hrun, hend hrun hloop hfollow⟩
  · have houtcome := @perform_outcome env db y ⟨c, .events (posted.map Prod.fst), limit, now⟩
      (.error err) herr
    cases houtcome with
    | refused => rfl

/-- A ban that is taken back in the same batch. -/
def sample_batch : List Event :=
  [⟨"4c9184f3-7cf4-4f9d-8f4e-6b9a3b0d5c01".toList, 4, .ban, "sshd".toList,
    "4c9184f3-7cf4-4f9d-8f4e-6b9a3b0d5d01".toList, "192.0.2.9".toList, some true, none⟩,
  ⟨"4c9184f3-7cf4-4f9d-8f4e-6b9a3b0d5c02".toList, 5, .unban, "sshd".toList,
    "4c9184f3-7cf4-4f9d-8f4e-6b9a3b0d5d01".toList, "192.0.2.9".toList, none, none⟩]

theorem batch_transparent_sample :
    ∃ x result y, apply_singly sample_env "a".toList 4 sample_full (sample_batch.zip [2, 1]) = .ok x ∧
      apply_events sample_env sample_full "a".toList sample_batch 4 3 = (.ok result, y) ∧
        (∀ c, claim_set x c = claim_set y c) ∧ ∀ c, last_seq x c = last_seq y c := by
  have hvalid : validate_events (.arr (sample_batch.map Event.wire)) 10 = .ok sample_batch := by
    decide +kernel
  have haccepted : (apply_singly sample_env "a".toList 4 sample_full
      (sample_batch.zip [2, 1])).toOption.isSome = true := by decide +kernel
  cases hrun : apply_singly sample_env "a".toList 4 sample_full (sample_batch.zip [2, 1]) with
  | error err =>
    rw [hrun] at haccepted
    cases haccepted
  | ok x =>
    obtain ⟨result, y, hbatch, hsame⟩ := (batch_transparent sample_env sample_full
      sample_full_reachable "a".toList _ 10 sample_batch hvalid (by decide +kernel)
      (by decide +kernel) 4 3 (sample_batch.zip [2, 1]) rfl).1 x hrun
    exact ⟨x, result, y, rfl, hbatch, hsame⟩

end F2bguard.Store
