/-
`RateLimiter.allow` (`server.py`) over any run of calls.

For each client the limiter keeps a queue of the times it has admitted, and removes from its left,
when the client calls again, those that are 60 seconds old. The queue then is what a rolling window
over the whole history would count (`Keeps`), as long as the clock does not go back; so the answers
are those of the window (`calls_answers_eq_run`).

Times are numbers here. The clock gives doubles, and for those below `2 ^ 55` seconds the
subtraction of `allow` is exact enough to make no difference (`double_calls_eq`).
-/
import F2bguard.Handler
import F2bguard.RollingWindow
import F2bguard.Doubles

set_option autoImplicit false

namespace F2bguard.RateLimiter

open F2bguard.PyText
open F2bguard.Handler (allow)
open F2bguard.RollingWindow (Request used admits run)

/-- A call of `allow`: the client and the time. -/
abbrev Call := Request Text ℚ

/-- The limiter between two calls, with the answers it has given. -/
structure Limiter where
  requests : Text → List ℚ := fun _ => []
  answers : List (Call × Bool) := []

/-- A call, and its answer. -/
def Limiter.call (limit : ℕ) (l : Limiter) (call : Call) : Limiter :=
  let (allowed, requests) := allow limit l.requests call.key call.time
  ⟨requests, l.answers ++ [(call, allowed)]⟩

/-- A new limiter after some calls. -/
def after_calls (limit : ℕ) (calls : List Call) : Limiter := calls.foldl (Limiter.call limit) {}

/-- The answers to calls of a new limiter. -/
def answers (limit : ℕ) (calls : List Call) : List (Call × Bool) := (after_calls limit calls).answers

/-- A time counts when it is in the 60 seconds up to now. -/
def Recent (now time : ℚ) : Prop := now - 60 < time ∧ time ≤ now

instance : DecidableRel Recent := fun _ _ => inferInstanceAs (Decidable (_ ∧ _))

/-- The calls come in the order of their times. -/
def InOrder (calls : List Call) : Prop := calls.Pairwise (fun a b => a.time ≤ b.time)

/-! ## The queue

The limiter forgets times, the window does not. Forgotten are only times that cannot count for a
later call any more. -/

/-- The admitted times of a client. -/
def admitted_times (log : List (Call × Bool)) (client_id : Text) : List ℚ :=
  (log.filter (fun entry => entry.2 ∧ entry.1.key = client_id)).map (fun entry => entry.1.time)

/-- In a sorted queue the times to be removed are on the left. -/
theorem dropWhile_eq_filter {queue : List ℚ} (h : queue.Pairwise (· ≤ ·)) (edge : ℚ) :
    queue.dropWhile (fun time => time ≤ edge) = queue.filter (fun time => edge < time) := by
  induction queue with
  | nil => rfl
  | cons time queue ih =>
    rw [List.pairwise_cons] at h
    by_cases htime : time ≤ edge
    · rw [List.dropWhile_cons_of_pos (p := fun time => decide (time ≤ edge)) (decide_eq_true htime),
        ih h.2, List.filter_cons_of_neg (by simpa using htime)]
    · rw [List.dropWhile_cons_of_neg (p := fun time => decide (time ≤ edge)) (by simpa using htime)]
      refine (List.filter_eq_self.mpr (fun other hother => decide_eq_true ?_)).symm
      rcases List.mem_cons.mp hother with rfl | hother
      · exact not_le.mp htime
      · exact lt_of_lt_of_le (not_le.mp htime) (h.1 other hother)

/-- What the queues have to do with the log: they are sorted, and hold the admitted times that can
still count when the client calls at `now` or later. -/
structure Keeps (requests : Text → List ℚ) (log : List (Call × Bool)) (now : ℚ) : Prop where
  sorted : ∀ client_id, (requests client_id).Pairwise (· ≤ ·)
  past : ∀ entry ∈ log, entry.1.time ≤ now
  recent : ∀ client_id later, now ≤ later →
    (requests client_id).filter (fun time => later - 60 < time) =
      (admitted_times log client_id).filter (fun time => later - 60 < time)

/-- What `allow` finds in the queue is what the window counts. -/
theorem Keeps.length_eq {requests : Text → List ℚ} {log : List (Call × Bool)} {call : Call}
    (h : Keeps requests log call.time) :
    ((requests call.key).dropWhile (fun time => time ≤ call.time - 60)).length =
      used Recent log call := by
  rw [dropWhile_eq_filter (h.sorted _), h.recent _ _ le_rfl, admitted_times, List.filter_map,
    List.length_map, List.filter_filter, used, List.countP_eq_length_filter]
  congr 1
  refine List.filter_congr (fun entry hentry => ?_)
  have hrecent : Recent call.time entry.1.time ↔ call.time - 60 < entry.1.time :=
    ⟨fun h => h.1, fun hlt => ⟨hlt, h.past entry hentry⟩⟩
  rw [Bool.eq_iff_iff]
  simp only [Function.comp_apply, Bool.and_eq_true, decide_eq_true_eq, hrecent]
  tauto

theorem admitted_times_append (log : List (Call × Bool)) (call : Call) (allowed : Bool)
    (client_id : Text) : admitted_times (log ++ [(call, allowed)]) client_id =
      admitted_times log client_id ++ if allowed ∧ call.key = client_id then [call.time] else [] := by
  unfold admitted_times
  rw [List.filter_append, List.map_append]
  congr 1
  by_cases h : allowed = true ∧ call.key = client_id
  · rw [List.filter_cons_of_pos (by simpa using h), if_pos h]
    rfl
  · rw [List.filter_cons_of_neg (by simpa using h), if_neg h]
    rfl

/-- The queue of the client after the times that are too old have been removed. -/
theorem Keeps.pruned {requests : Text → List ℚ} {log : List (Call × Bool)} {now : ℚ}
    (h : Keeps requests log now) (client_id : Text) :
    let history := (requests client_id).dropWhile (fun time => time ≤ now - 60)
    history.Pairwise (· ≤ ·) ∧ (∀ time ∈ history, time ≤ now) ∧ ∀ later, now ≤ later →
      history.filter (fun time => later - 60 < time) =
        (admitted_times log client_id).filter (fun time => later - 60 < time) := by
  intro history
  have hfilter : history = (requests client_id).filter (fun time => now - 60 < time) :=
    dropWhile_eq_filter (h.sorted client_id) _
  refine ⟨(h.sorted client_id).sublist (List.dropWhile_sublist _), fun time htime => ?_,
    fun later hlater => ?_⟩
  · rw [hfilter, h.recent client_id now le_rfl] at htime
    obtain ⟨entry, hentry, rfl⟩ := List.mem_map.mp (List.mem_of_mem_filter htime)
    exact h.past entry (List.mem_of_mem_filter hentry)
  · rw [hfilter, ← h.recent client_id later hlater, List.filter_filter]
    refine List.filter_congr (fun time _ => ?_)
    rw [Bool.and_eq_left_iff_imp]
    intro hlt
    have hlt := of_decide_eq_true hlt
    exact decide_eq_true (by linarith)

/-- A call keeps it so, and is answered as the window says. -/
theorem Keeps.call {l : Limiter} {limit : ℕ} {call : Call}
    (h : Keeps l.requests l.answers call.time) :
    (l.call limit call).answers = l.answers ++ [(call, admits Recent limit l.answers call)] ∧
      Keeps (l.call limit call).requests (l.call limit call).answers call.time := by
  have hlength := h.length_eq
  obtain ⟨hsorted, hpast, hrecent⟩ := h.pruned call.key
  unfold Limiter.call allow
  dsimp only at hsorted hpast hrecent ⊢
  -- the pruned deque is the window of the admitted calls
  generalize (l.requests call.key).dropWhile (fun time => time ≤ call.time - 60) = history at *
  have hlog : ∀ allowed, ∀ entry ∈ l.answers ++ [(call, allowed)], entry.1.time ≤ call.time := by
    intro allowed entry hentry
    rcases List.mem_append.mp hentry with hentry | hentry
    · exact h.past entry hentry
    · rw [List.mem_singleton.mp hentry]
  split
  · rename_i hfull
    dsimp only
    -- the deque is full: nothing is appended
    have hrefused : admits Recent limit l.answers call = false :=
      decide_eq_false (not_lt.mpr (hlength ▸ hfull))
    rw [hrefused]
    refine ⟨rfl, fun client_id => ?_, hlog false, fun client_id later hlater => ?_⟩
    · by_cases hclient : client_id = call.key
      · rwa [hclient, Function.update_self]
      · rw [Function.update_of_ne hclient]
        exact h.sorted client_id
    · rw [admitted_times_append, if_neg (fun h => Bool.false_ne_true h.1), List.append_nil]
      by_cases hclient : client_id = call.key
      · rw [hclient, Function.update_self]
        exact hrecent later hlater
      · rw [Function.update_of_ne hclient]
        exact h.recent client_id later hlater
  · rename_i hroom
    dsimp only
    -- there is room: the time goes to the end, and it is the latest
    have hadmitted : admits Recent limit l.answers call = true :=
      decide_eq_true (hlength ▸ not_le.mp hroom)
    rw [hadmitted]
    refine ⟨rfl, fun client_id => ?_, hlog true, fun client_id later hlater => ?_⟩
    · by_cases hclient : client_id = call.key
      · rw [hclient, Function.update_self, List.pairwise_append]
        refine ⟨hsorted, List.pairwise_singleton _ _, fun time htime now hnow => ?_⟩
        rw [List.mem_singleton.mp hnow]
        exact hpast time htime
      · rw [Function.update_of_ne hclient]
        exact h.sorted client_id
    · rw [admitted_times_append]
      by_cases hclient : client_id = call.key
      · rw [hclient, Function.update_self, if_pos ⟨rfl, rfl⟩, List.filter_append, List.filter_append,
          hrecent later hlater]
      · rw [Function.update_of_ne hclient, if_neg (fun h => hclient h.2.symm), List.append_nil]
        exact h.recent client_id later hlater

theorem Keeps.mono {requests : Text → List ℚ} {log : List (Call × Bool)} {now later : ℚ}
    (h : Keeps requests log now) (hle : now ≤ later) : Keeps requests log later :=
  ⟨h.sorted, fun entry hentry => (h.past entry hentry).trans hle,
    fun client_id later' hlater => h.recent client_id later' (hle.trans hlater)⟩

theorem after_calls_append_singleton (limit : ℕ) (calls : List Call) (call : Call) :
    after_calls limit (calls ++ [call]) = (after_calls limit calls).call limit call := by
  rw [after_calls, List.foldl_append]
  rfl

/-- Over a run the answers are those of the window. -/
theorem calls_answers_eq_run (limit : ℕ) {calls : List Call} (h : InOrder calls) :
    answers limit calls = run Recent limit calls ∧
      ∀ now, (∀ call ∈ calls, call.time ≤ now) →
        Keeps (after_calls limit calls).requests (answers limit calls) now := by
  induction calls using List.reverseRecOn with
  | nil =>
    exact ⟨rfl, fun _ _ => ⟨fun _ => List.Pairwise.nil, fun _ h => (by cases h), fun _ _ _ => rfl⟩⟩
  | append_singleton calls call ih =>
    obtain ⟨hcalls, -, hlast⟩ := List.pairwise_append.mp h
    obtain ⟨hrun, hkeeps⟩ := ih hcalls
    have hnow := hkeeps call.time (fun other hother => hlast other hother call List.mem_cons_self)
    obtain ⟨hanswers, hkept⟩ := @Keeps.call (after_calls limit calls) limit call hnow
    rw [answers, after_calls_append_singleton]
    refine ⟨?_, fun now hle => hkept.mono (hle call (List.mem_append_right _ List.mem_cons_self))⟩
    rw [hanswers, RollingWindow.run_append_singleton, ← hrun]
    rfl

/-! ## The answers

What the answers say is what is known of rolling windows, with the 60 seconds put in. -/

/-- How many of the answers admit a call of the client at a time in the window. -/
def admitted_in (log : List (Call × Bool)) (client_id : Text) (window : ℚ → Prop)
    [DecidablePred window] : ℕ :=
  log.countP (fun entry => entry.2 ∧ entry.1.key = client_id ∧ window entry.1.time)

theorem InOrder.recent {calls : List Call} (h : InOrder calls) {window : ℚ → Prop}
    (hwindow : ∀ a b, window a → window b → b - 60 < a) :
    calls.Pairwise (fun a b => window a.time → window b.time → Recent b.time a.time) :=
  h.imp (fun hle ha hb => ⟨hwindow _ _ ha hb, hle⟩)

/-- **The limiter is a rolling window.** For calls in the order of their times: a call is admitted
exactly when fewer than the limit of its client's were in the 60 seconds before it; no window of
60 seconds has more than the limit; a refused call and the calls of the other clients make no
difference. -/
theorem rate_limiter_spec (limit : ℕ) (calls : List Call) (h : InOrder calls) :
    (answers limit calls).map Prod.fst = calls ∧
    (∀ i call allowed, (answers limit calls)[i]? = some (call, allowed) →
      (allowed = true ↔
        admitted_in ((answers limit calls).take i) call.key (Recent call.time) < limit)) ∧
    (∀ client_id t, admitted_in (answers limit calls) client_id (fun time => t - 60 < time ∧ time ≤ t) ≤ limit ∧
      admitted_in (answers limit calls) client_id (fun time => t ≤ time ∧ time < t + 60) ≤ limit) ∧
    (∀ earlier call later, calls = earlier ++ call :: later →
      (answers limit calls)[earlier.length]? = some (call, false) →
        answers limit (earlier ++ later) = (answers limit calls).eraseIdx earlier.length) ∧
    (∀ client_id, (answers limit calls).filter (fun entry => entry.1.key = client_id) =
      answers limit (calls.filter (fun call => call.key = client_id))) := by
  have hrun := (calls_answers_eq_run limit h).1
  refine ⟨?_, fun i call allowed hentry => ?_, fun client_id t => ⟨?_, ?_⟩,
    fun earlier call later hcalls hrefused => ?_, fun client_id => ?_⟩
  · rw [hrun]
    exact RollingWindow.run_map_fst Recent limit calls
  · rw [hrun] at hentry ⊢
    exact RollingWindow.run_admitted_iff Recent limit hentry
  · have hwindow : ∀ a b : ℚ, t - 60 < a ∧ a ≤ t → t - 60 < b ∧ b ≤ t → b - 60 < a :=
      fun a b ha hb => by linarith [ha.1, hb.2]
    -- every part is the one of the abstract window
    rw [hrun]
    exact RollingWindow.run_at_most Recent limit (h.recent hwindow) client_id
  · have hwindow : ∀ a b : ℚ, t ≤ a ∧ a < t + 60 → t ≤ b ∧ b < t + 60 → b - 60 < a :=
      fun a b ha hb => by linarith [ha.1, hb.2]
    rw [hrun]
    exact RollingWindow.run_at_most Recent limit (h.recent hwindow) client_id
  · subst hcalls
    have hsub : (earlier ++ later).Sublist (earlier ++ call :: later) :=
      (List.sublist_cons_self call later).append_left earlier
    rw [(calls_answers_eq_run limit (h.sublist hsub)).1, hrun]
    rw [hrun] at hrefused
    have hlen := RollingWindow.run_length Recent limit earlier
    rw [RollingWindow.run_getElem?_length] at hrefused
    have hanswer : admits Recent limit (run Recent limit earlier) call = false :=
      congrArg Prod.snd (Option.some.inj hrefused)
    obtain ⟨rest, hwithout, hwith⟩ := RollingWindow.run_refused Recent limit earlier call later hanswer
    rw [hwithout, hwith, ← hlen, List.eraseIdx_append_of_length_le le_rfl, Nat.sub_self]
    rfl
  · rw [hrun, (calls_answers_eq_run limit (h.sublist List.filter_sublist)).1]
    exact RollingWindow.run_filter_key Recent limit calls client_id

/-- Two calls a minute, at the edge of the window. -/
def sample_calls : List Call :=
  [⟨"a".toList, 0⟩, ⟨"a".toList, 1⟩, ⟨"a".toList, 59⟩, ⟨"a".toList, 60⟩, ⟨"b".toList, 60⟩]

theorem rate_limiter_spec_sample :
    (answers 2 sample_calls).map Prod.snd = [true, true, false, true, true] ∧
      admitted_in (answers 2 sample_calls) "a".toList (fun time => 61 - 60 < time ∧ time ≤ 61) ≤ 2 := by
  have hcalls : InOrder sample_calls := by
    unfold InOrder sample_calls
    decide +kernel
  exact ⟨by decide +kernel, ((rate_limiter_spec 2 sample_calls hcalls).2.2.1 "a".toList 61).1⟩

/-! ## The times of the clock

Readings of the clock are doubles, and so is the difference the limiter computes. It can be
rounded only where it is negative, and then no reading of the clock lies before it. -/

open F2bguard.Datetime (to_double ulp to_double_nonneg_iff to_double_sub_eq binary_exponent_spec
  two_zpow_lt_iff)

/-- `time.monotonic()` -/
structure ClockTime (now : ℚ) : Prop where
  double : to_double now = now
  nonneg : 0 ≤ now
  small : now < 2 ^ 55

/-- `RateLimiter.allow` with the subtraction of doubles. -/
def allow_double (limit : ℕ) (requests : Text → List ℚ) (client_id : Text) (now : ℚ) :
    Bool × (Text → List ℚ) :=
  let history := (requests client_id).dropWhile (fun time => time ≤ to_double (now - 60))
  if limit ≤ history.length then (false, Function.update requests client_id history)
  else (true, Function.update requests client_id (history ++ [now]))

/-- Below `2 ^ 55`, 60 is a multiple of the distance between doubles. -/
theorem sixty_mul_ulp {q : ℚ} (hq : q ≠ 0) (h : |q| < 2 ^ 55) : ∃ n : ℤ, (60 : ℚ) = n * ulp q := by
  have hexponent : Datetime.binary_exponent |q| < 55 :=
    two_zpow_lt_iff.mp (lt_of_le_of_lt (binary_exponent_spec (abs_pos.mpr hq)).1 h)
  refine ⟨15 * 2 ^ (2 - max (Datetime.binary_exponent |q| - 52) (-1074)).toNat, ?_⟩
  rw [ulp]
  push_cast
  rw [mul_assoc, ← zpow_natCast, ← zpow_add₀ (by norm_num)]
  have htwo : (((2 - max (Datetime.binary_exponent |q| - 52) (-1074)).toNat : ℕ) : ℤ) +
      max (Datetime.binary_exponent |q| - 52) (-1074) = 2 := by omega
  rw [htwo]
  norm_num

/-- A time that is not negative is behind the edge of the doubles when it is behind the edge. -/
theorem ClockTime.le_edge_iff {now time : ℚ} (h : ClockTime now) (htime : 0 ≤ time) :
    time ≤ to_double (now - 60) ↔ time ≤ now - 60 := by
  rcases lt_or_ge now 30 with hnow | hnow
  · have hsign := @to_double_nonneg_iff (now - 60) (fun _ => by linarith)
    constructor
    · intro hle
      have := hsign.mp (htime.trans hle)
      linarith
    · intro hle
      linarith
  · have hle : |now - 60| ≤ now := by
      rw [abs_le]
      constructor
      · linarith
      · linarith
    by_cases hzero : now - 60 = 0
    · rw [hzero, show to_double 0 = 0 from if_pos rfl]
    · rw [to_double_sub_eq h.double (by linarith) hle
        (sixty_mul_ulp hzero (lt_of_le_of_lt hle h.small))]

theorem allow_double_eq (limit : ℕ) {requests : Text → List ℚ} {client_id : Text} {now : ℚ}
    (hnow : ClockTime now) (htimes : ∀ time ∈ requests client_id, 0 ≤ time) :
    allow_double limit requests client_id now = allow limit requests client_id now := by
  have hdrop : (requests client_id).dropWhile (fun time => time ≤ to_double (now - 60)) =
      (requests client_id).dropWhile (fun time => time ≤ now - 60) := by
    generalize requests client_id = queue at htimes ⊢
    induction queue with
    | nil => rfl
    | cons time queue ih =>
      rw [List.forall_mem_cons] at htimes
      simp only [List.dropWhile_cons, hnow.le_edge_iff htimes.1, ih htimes.2]
  unfold allow_double allow
  rw [hdrop]

/-- A time in a queue was there before or is the time of the call. -/
theorem mem_allow {limit : ℕ} {requests : Text → List ℚ} {client_id other : Text} {now time : ℚ}
    (h : time ∈ (allow limit requests client_id now).2 other) : time ∈ requests other ∨ time = now := by
  have hold : ∀ {time}, time ∈ (requests client_id).dropWhile (fun time => time ≤ now - 60) →
      time ∈ requests client_id := fun hmem => (List.dropWhile_sublist _).mem hmem
  unfold allow at h
  dsimp only at h
  generalize (requests client_id).dropWhile (fun time => time ≤ now - 60) = history at hold h
  by_cases hclient : other = client_id
  · subst hclient
    split at h
    · dsimp only at h
      rw [Function.update_self] at h
      exact .inl (hold h)
    · dsimp only at h
      rw [Function.update_self] at h
      rcases List.mem_append.mp h with h | h
      · exact .inl (hold h)
      · exact .inr (List.mem_singleton.mp h)
  · split at h
    · dsimp only at h
      rw [Function.update_of_ne hclient] at h
      exact .inl h
    · dsimp only at h
      rw [Function.update_of_ne hclient] at h
      exact .inl h

/-- The limiter as it runs with the doubles of the clock. -/
def double_calls (limit : ℕ) (calls : List Call) : Limiter :=
  calls.foldl (fun l call =>
    let (allowed, requests) := allow_double limit l.requests call.key call.time
    ⟨requests, l.answers ++ [(call, allowed)]⟩) {}

/-- With the times of a clock the doubles make no difference. The queues hold times of calls, which
are not negative. -/
theorem double_calls_eq (limit : ℕ) {calls : List Call} (h : ∀ call ∈ calls, ClockTime call.time) :
    double_calls limit calls = after_calls limit calls ∧
      ∀ client_id, ∀ time ∈ (after_calls limit calls).requests client_id, 0 ≤ time := by
  induction calls using List.reverseRecOn with
  | nil => exact ⟨rfl, fun _ _ h => (by cases h)⟩
  | append_singleton calls call ih =>
    rw [List.forall_mem_append, List.forall_mem_singleton] at h
    obtain ⟨hsame, htimes⟩ := ih h.1
    have hallow := allow_double_eq limit h.2 (htimes call.key)
    refine ⟨?_, fun client_id time htime => ?_⟩
    · rw [double_calls, List.foldl_append, List.foldl_cons, List.foldl_nil, after_calls_append_singleton,
        Limiter.call, ← hallow, ← hsame]
      rfl
    · rw [after_calls_append_singleton, Limiter.call] at htime
      rcases mem_allow htime with hold | rfl
      · exact htimes client_id time hold
      · exact h.2.nonneg

end F2bguard.RateLimiter
