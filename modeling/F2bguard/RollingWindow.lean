/-
At most `limit` requests of a key within a window.

A request is admitted when fewer than `limit` earlier ones of its key were admitted and still count
at its time. Which ones count is up to the relation `counts`. Refused requests and those of other
keys make no difference, and of times that all count for one another at most `limit` are admitted
(`run_at_most`).
-/
import Mathlib.Data.List.Induction
import Mathlib.Data.List.Count

set_option autoImplicit false

namespace F2bguard.RollingWindow

variable {κ τ : Type}

/-- A request of a key at a time. -/
structure Request (κ τ : Type) where
  key : κ
  time : τ
  deriving DecidableEq

variable [DecidableEq κ] (counts : τ → τ → Prop) [DecidableRel counts] (limit : ℕ)

/-- How many admitted requests of the key count at the time of this one. -/
def used (log : List (Request κ τ × Bool)) (request : Request κ τ) : ℕ :=
  log.countP (fun entry => entry.2 ∧ entry.1.key = request.key ∧ counts request.time entry.1.time)

/-- Fewer than `limit` are in use. -/
def admits (log : List (Request κ τ × Bool)) (request : Request κ τ) : Bool :=
  decide (used counts log request < limit)

/-- The requests in their order, with the answers. -/
def run (requests : List (Request κ τ)) : List (Request κ τ × Bool) :=
  requests.foldl (fun log request => log ++ [(request, admits counts limit log request)]) []

@[simp] theorem run_nil : run counts limit ([] : List (Request κ τ)) = [] := rfl

theorem run_append_singleton (requests : List (Request κ τ)) (request : Request κ τ) :
    run counts limit (requests ++ [request]) = run counts limit requests ++
      [(request, admits counts limit (run counts limit requests) request)] := by
  rw [run, List.foldl_append, List.foldl_cons, List.foldl_nil]
  rfl

theorem run_map_fst (requests : List (Request κ τ)) :
    (run counts limit requests).map Prod.fst = requests := by
  induction requests using List.reverseRecOn with
  | nil => rfl
  | append_singleton requests request ih =>
    rw [run_append_singleton, List.map_append, ih, List.map_singleton]

theorem run_length (requests : List (Request κ τ)) :
    (run counts limit requests).length = requests.length := by
  rw [← List.length_map Prod.fst, run_map_fst]

/-- The requests before one are answered without it. -/
theorem run_append_take (requests later : List (Request κ τ)) :
    (run counts limit (requests ++ later)).take requests.length = run counts limit requests := by
  induction later using List.reverseRecOn with
  | nil =>
    rw [List.append_nil, ← run_length counts limit requests, List.take_length]
  | append_singleton later request ih =>
    have hlen : requests.length ≤ (run counts limit (requests ++ later)).length := by
      rw [run_length, List.length_append]
      omega
    rw [← List.append_assoc, run_append_singleton, List.take_append_of_le_length hlen, ih]

/-- The answer to a request depends on those before it. -/
theorem run_getElem?_length (requests : List (Request κ τ)) (request : Request κ τ)
    (later : List (Request κ τ)) :
    (run counts limit (requests ++ request :: later))[requests.length]? =
      some (request, admits counts limit (run counts limit requests) request) := by
  have htake := run_append_take counts limit (requests ++ [request]) later
  rw [List.append_assoc, List.singleton_append, run_append_singleton] at htake
  have hlt : requests.length < (requests ++ [request]).length := by
    rw [List.length_append, List.length_singleton]
    exact Nat.lt_succ_self _
  rw [← List.getElem?_take_of_lt hlt, htake]
  have hlen := run_length counts limit requests
  rw [← hlen, List.getElem?_concat_length]

/-- A request is admitted exactly when fewer than `limit` admitted ones before it count. -/
theorem run_admitted_iff {requests : List (Request κ τ)} {i : ℕ} {request : Request κ τ} {allowed : Bool}
    (h : (run counts limit requests)[i]? = some (request, allowed)) :
    allowed = true ↔ used counts ((run counts limit requests).take i) request < limit := by
  have hi : i < requests.length := by
    rw [← run_length counts limit requests]
    exact (List.getElem?_eq_some_iff.mp h).1
  have hsplit : requests = requests.take i ++ requests[i] :: requests.drop (i + 1) := by
    rw [← List.drop_eq_getElem_cons hi, List.take_append_drop]
  have htake : (requests.take i).length = i := List.length_take_of_le (Nat.le_of_lt hi)
  have hbefore := run_append_take counts limit (requests.take i) (requests[i] :: requests.drop (i + 1))
  have hentry := run_getElem?_length counts limit (requests.take i) requests[i] (requests.drop (i + 1))
  rw [← hsplit, htake] at hbefore hentry
  rw [h] at hentry
  obtain ⟨rfl, rfl⟩ := Prod.mk.inj (Option.some.inj hentry)
  rw [hbefore]
  exact decide_eq_true_iff

/-- Of times that count for one another no more than `limit` are admitted. The last one was
admitted when all the others counted. -/
theorem run_at_most {requests : List (Request κ τ)} {W : τ → Prop} [DecidablePred W]
    (h : requests.Pairwise (fun a b => W a.time → W b.time → counts b.time a.time)) (key : κ) :
    (run counts limit requests).countP (fun entry => entry.2 ∧ entry.1.key = key ∧ W entry.1.time) ≤
      limit := by
  induction requests using List.reverseRecOn with
  | nil => exact Nat.zero_le _
  | append_singleton requests request ih =>
    obtain ⟨hrequests, -, hlast⟩ := List.pairwise_append.mp h
    have hbefore := ih hrequests
    rw [run_append_singleton, List.countP_append, List.countP_singleton]
    split
    · rename_i hnew
      obtain ⟨hadmitted, hkey, hwindow⟩ := of_decide_eq_true hnew
      have hused : (run counts limit requests).countP
          (fun entry => entry.2 ∧ entry.1.key = key ∧ W entry.1.time) ≤
            used counts (run counts limit requests) request := by
        refine List.countP_mono_left (fun entry hentry hcounted => ?_)
        obtain ⟨hallowed, hsame, hinside⟩ := of_decide_eq_true hcounted
        have hmem : entry.1 ∈ requests := by
          rw [← run_map_fst counts limit requests]
          exact List.mem_map_of_mem hentry
        exact decide_eq_true ⟨hallowed, hsame.trans hkey.symm,
          hlast entry.1 hmem request List.mem_cons_self hinside hwindow⟩
      have hfew : used counts (run counts limit requests) request < limit := of_decide_eq_true hadmitted
      omega
    · exact hbefore

/-- Requests of other keys make no difference. -/
theorem run_filter_key (requests : List (Request κ τ)) (key : κ) :
    (run counts limit requests).filter (fun entry => entry.1.key = key) =
      run counts limit (requests.filter (fun request => request.key = key)) := by
  induction requests using List.reverseRecOn with
  | nil => rfl
  | append_singleton requests request ih =>
    rw [run_append_singleton, List.filter_append, List.filter_append, ih]
    by_cases hkey : request.key = key
    · have hused : used counts (run counts limit requests) request =
          used counts ((run counts limit requests).filter (fun entry => entry.1.key = key)) request := by
        unfold used
        rw [List.countP_filter]
        refine List.countP_congr (fun entry _ => ?_)
        simp only [decide_eq_true_eq, Bool.and_eq_true]
        rw [hkey]
        tauto
      have hentry : [(request, admits counts limit (run counts limit requests) request)].filter
          (fun entry => entry.1.key = key) = [(request, admits counts limit (run counts limit requests)
            request)] := List.filter_cons_of_pos (decide_eq_true hkey)
      have hrequest : [request].filter (fun request => request.key = key) = [request] :=
        List.filter_cons_of_pos (decide_eq_true hkey)
      rw [hentry, hrequest, run_append_singleton, admits, admits, hused, ih]
    · have hentry : [(request, admits counts limit (run counts limit requests) request)].filter
          (fun entry => entry.1.key = key) = [] :=
        List.filter_cons_of_neg (fun h => hkey (of_decide_eq_true h))
      have hrequest : [request].filter (fun request => request.key = key) = [] :=
        List.filter_cons_of_neg (fun h => hkey (of_decide_eq_true h))
      rw [hentry, hrequest, List.append_nil, List.append_nil]

/-- A refused request makes no difference to those behind it. -/
theorem run_refused (requests : List (Request κ τ)) (request : Request κ τ)
    (later : List (Request κ τ)) (h : admits counts limit (run counts limit requests) request = false) :
    ∃ answers, run counts limit (requests ++ later) = run counts limit requests ++ answers ∧
      run counts limit (requests ++ request :: later) =
        run counts limit requests ++ (request, false) :: answers := by
  induction later using List.reverseRecOn with
  | nil =>
    refine ⟨[], ?_, ?_⟩
    · rw [List.append_nil, List.append_nil]
    · rw [run_append_singleton, h]
  | append_singleton later other ih =>
    obtain ⟨answers, hwithout, hwith⟩ := ih
    have hused : used counts (run counts limit requests ++ (request, false) :: answers) other =
        used counts (run counts limit requests ++ answers) other := by
      unfold used
      rw [List.countP_append, List.countP_append, List.countP_cons_of_neg (by simp)]
    refine ⟨answers ++ [(other, admits counts limit (run counts limit requests ++ answers) other)],
      ?_, ?_⟩
    · rw [← List.append_assoc, run_append_singleton, hwithout, List.append_assoc]
    · rw [← List.cons_append, ← List.append_assoc, run_append_singleton, hwith, List.append_assoc,
        List.cons_append, admits, admits, hused]

end F2bguard.RollingWindow
