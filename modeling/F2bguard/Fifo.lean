/-
Requests that are served in the order they came.

A line is the requests made so far and the answers to the first of them: a request waits from
the moment it is made until it is answered, whoever made it and whether anyone still waits for
the answer. So an answer to the request made last means that nothing waits any more
(`waiting_of_last`), and what grows along the requests is, for those that wait, at least what it
is for the one that is answered next (`Ordered.le_of_waiting`). Nothing here knows what requests
and answers are.
-/
import Mathlib.Data.List.Basic
import Mathlib.Data.Nat.Basic

set_option autoImplicit false

namespace F2bguard.Fifo

variable {R A : Type*}

/-- All requests so far, and the answers to the first of them, in the same order. -/
structure Line (R A : Type*) where
  requests : List R
  answers : List A
  answered_le : answers.length ≤ requests.length

namespace Line

/-- Nothing was requested. -/
def empty : Line R A := ⟨[], [], le_rfl⟩

/-- The requests that have not been answered. -/
def waiting (l : Line R A) : List R := l.requests.drop l.answers.length

/-- The request that is answered next. -/
def next (l : Line R A) : Option R := l.requests[l.answers.length]?

/-- A request is made. -/
def submit (l : Line R A) (r : R) : Line R A where
  requests := l.requests ++ [r]
  answers := l.answers
  answered_le := by
    rw [List.length_append]
    exact Nat.le_trans l.answered_le (Nat.le_add_right _ _)

/-- The next request is answered. -/
def answer (l : Line R A) (a : A) (h : l.next.isSome) : Line R A where
  requests := l.requests
  answers := l.answers ++ [a]
  answered_le := by
    rw [List.length_append, List.length_singleton]
    rw [next, Option.isSome_iff_exists] at h
    obtain ⟨r, hr⟩ := h
    exact (List.getElem?_eq_some_iff.mp hr).1

/-- The answer to the request with a number. -/
def Answered (l : Line R A) (i : ℕ) (r : R) (a : A) : Prop :=
  l.requests[i]? = some r ∧ l.answers[i]? = some a

@[simp] theorem requests_submit (l : Line R A) (r : R) :
    (l.submit r).requests = l.requests ++ [r] := rfl

@[simp] theorem answers_submit (l : Line R A) (r : R) : (l.submit r).answers = l.answers := rfl

@[simp] theorem requests_answer (l : Line R A) (a : A) (h : l.next.isSome) :
    (l.answer a h).requests = l.requests := rfl

@[simp] theorem answers_answer (l : Line R A) (a : A) (h : l.next.isSome) :
    (l.answer a h).answers = l.answers ++ [a] := rfl

/-! ## What waits

What waits is what was requested behind the last answer. It changes at one end when a request is
made and at the other when one is answered. -/

theorem waiting_submit (l : Line R A) (r : R) : (l.submit r).waiting = l.waiting ++ [r] := by
  rw [waiting, requests_submit, answers_submit, List.drop_append_of_le_length l.answered_le, waiting]

theorem waiting_eq_cons {l : Line R A} {r : R} (h : l.next = some r) :
    l.waiting = r :: l.requests.drop (l.answers.length + 1) := by
  obtain ⟨hlt, hget⟩ := List.getElem?_eq_some_iff.mp h
  rw [waiting, List.drop_eq_getElem_cons hlt, hget]

theorem mem_waiting_of_next {l : Line R A} {r : R} (h : l.next = some r) : r ∈ l.waiting := by
  rw [waiting_eq_cons h]
  exact List.mem_cons_self

theorem mem_of_waiting {l : Line R A} {r : R} (h : r ∈ l.waiting) : r ∈ l.requests :=
  List.mem_of_mem_drop h

/-- What waits after an answer waited before. -/
theorem mem_waiting_of_answer {l : Line R A} {a : A} {hnext : l.next.isSome} {r : R}
    (h : r ∈ (l.answer a hnext).waiting) : r ∈ l.waiting := by
  have hdrop : (l.answer a hnext).waiting = l.waiting.drop 1 := by
    rw [waiting, requests_answer, answers_answer, List.length_append, List.length_singleton, waiting,
      List.drop_drop]
  rw [hdrop] at h
  exact List.mem_of_mem_drop h

/-- A request that was made while others wait does not go first. -/
theorem next_submit {l : Line R A} {r : R} (h : l.next = some r) (r' : R) :
    (l.submit r').next = some r := by
  obtain ⟨hlt, -⟩ := List.getElem?_eq_some_iff.mp h
  rw [next, requests_submit, answers_submit, List.getElem?_append_left hlt]
  exact h

theorem length_answers {l : Line R A} (h : l.waiting = []) :
    l.answers.length = l.requests.length := by
  apply Nat.le_antisymm l.answered_le
  exact List.drop_eq_nil_iff.mp h

/-- A request that is made when nothing waits goes first. -/
theorem next_submit_of_waiting {l : Line R A} (h : l.waiting = []) (r : R) :
    (l.submit r).next = some r := by
  rw [next, requests_submit, answers_submit, length_answers h, List.getElem?_concat_length]

/-- It may be answered at once. -/
theorem answered_of_waiting {l : Line R A} (h : l.waiting = []) (r : R) (a : A)
    (hnext : (l.submit r).next.isSome) :
    ((l.submit r).answer a hnext).Answered l.requests.length r a := by
  constructor
  · rw [requests_answer, requests_submit, List.getElem?_concat_length]
  · rw [answers_answer, answers_submit, ← length_answers h, List.getElem?_concat_length]

/-- When the request made last is answered, nothing waits. -/
theorem waiting_of_last {l : Line R A} {i : ℕ} {r : R} {a : A} (h : l.Answered i r a)
    (hlast : i + 1 = l.requests.length) : l.waiting = [] := by
  obtain ⟨hlt, -⟩ := List.getElem?_eq_some_iff.mp h.2
  rw [waiting, List.drop_eq_nil_iff]
  omega

/-- Nothing waits exactly when every request has an answer. -/
theorem waiting_eq_nil_iff (l : Line R A) : l.waiting = [] ↔
    ∀ i r, l.requests[i]? = some r → ∃ a, l.Answered i r a := by
  rw [waiting, List.drop_eq_nil_iff]
  constructor
  · intro hle i r hr
    obtain ⟨hlt, -⟩ := List.getElem?_eq_some_iff.mp hr
    exact ⟨l.answers[i], hr, List.getElem?_eq_getElem (by omega)⟩
  · intro h
    by_contra hlt
    rw [not_le] at hlt
    obtain ⟨a, -, ha⟩ := h _ _ (List.getElem?_eq_getElem hlt)
    rw [List.getElem?_eq_none le_rfl] at ha
    cases ha

/-! ## Answers

An answer stays with the number of its request, whatever comes later. -/

/-- A request is not answered by being made. -/
theorem Answered.of_submit {l : Line R A} {i : ℕ} {r r' : R} {a : A}
    (h : (l.submit r').Answered i r a) : l.Answered i r a := by
  obtain ⟨hrequest, hanswer⟩ := h
  obtain ⟨hlt, -⟩ := List.getElem?_eq_some_iff.mp hanswer
  rw [answers_submit] at hlt
  rw [requests_submit, List.getElem?_append_left (Nat.lt_of_lt_of_le hlt l.answered_le)] at hrequest
  exact ⟨hrequest, hanswer⟩

/-- What is answered was answered before, or it was next. -/
theorem Answered.of_answer {l : Line R A} {i : ℕ} {r : R} {a a' : A} {hnext : l.next.isSome}
    (h : (l.answer a' hnext).Answered i r a) :
    l.Answered i r a ∨ (l.next = some r ∧ a = a') := by
  obtain ⟨hrequest, hanswer⟩ := h
  rw [answers_answer] at hanswer
  rcases lt_or_ge i l.answers.length with hlt | hge
  · rw [List.getElem?_append_left hlt] at hanswer
    exact Or.inl ⟨hrequest, hanswer⟩
  · obtain ⟨hlt, hget⟩ := List.getElem?_eq_some_iff.mp hanswer
    rw [List.length_append, List.length_singleton] at hlt
    obtain rfl : i = l.answers.length := by omega
    rw [List.getElem_concat_length rfl] at hget
    exact Or.inr ⟨hrequest, hget.symm⟩

/-! ## What grows along the requests

A key of the requests that never gets smaller from one to the next: of what waits, the next
request has the least. -/

/-- The requests are made in the order of a key. -/
def Ordered (key : R → ℕ) (l : Line R A) : Prop :=
  l.requests.Pairwise (fun r r' => key r ≤ key r')

theorem Ordered.submit {key : R → ℕ} {l : Line R A} (h : l.Ordered key) {r : R}
    (hr : ∀ r' ∈ l.requests, key r' ≤ key r) : (l.submit r).Ordered key := by
  rw [Ordered, requests_submit, List.pairwise_append]
  refine ⟨h, List.pairwise_singleton _ _, ?_⟩
  intro r' hr' r'' hr''
  rw [List.mem_singleton.mp hr'']
  exact hr r' hr'

/-- What waits has a key at least that of the request that is next. -/
theorem Ordered.le_of_waiting {key : R → ℕ} {l : Line R A} (h : l.Ordered key) {r : R}
    (hnext : l.next = some r) : ∀ r' ∈ l.waiting, key r ≤ key r' := by
  have hpairwise : l.waiting.Pairwise (fun r r' => key r ≤ key r') :=
    h.sublist (List.drop_sublist _ _)
  rw [waiting_eq_cons hnext, List.pairwise_cons] at hpairwise
  rw [waiting_eq_cons hnext, List.forall_mem_cons]
  exact ⟨le_rfl, hpairwise.1⟩

end Line

end F2bguard.Fifo
