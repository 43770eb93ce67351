/-
Programs that run beside each other on one state.

A program is a tree of calls, and what a call answers may depend on all that happened before it.
`Meets` is the rely-guarantee triple of such a program: whatever the others do in between, as long as
it is in the rely, each call of the program is in its guarantee and its result is as the
postcondition says. Threads that keep what the others rely on can be put together (`safe_run`,
`meets_run`), so what is shown of one thread alone holds of it in every run of all of them.
-/
import F2bguard.Runs

set_option autoImplicit false

namespace F2bguard.RelyGuarantee

open F2bguard.Runs

/-! ## Programs

A program is given by the calls it makes, and by how it goes on after each answer. It has no
access to the state, so whatever the others do must show in an answer or it does not matter. -/

/-- A program that has come to its result, or one that makes a call and goes on with the answer.
-/
inductive Prog (Call : Type) (Answer : Call → Type) (α : Type)
  | done (a : α)
  | call (c : Call) (next : Answer c → Prog Call Answer α)

section Triples

variable {σ Call : Type} {Answer : Call → Type} {α β : Type}

def Prog.bind : Prog Call Answer α → (α → Prog Call Answer β) → Prog Call Answer β
  | .done a, f => f a
  | .call c next, f => .call c (fun x => (next x).bind f)

instance : Monad (Prog Call Answer) where
  pure := .done
  bind := .bind

/-- One call. -/
def Prog.perform (c : Call) : Prog Call Answer (Answer c) := .call c .done

/-- The meaning of the calls. A call may have several answers, or none: then it hangs. -/
abbrev Exec (σ Call : Type) (Answer : Call → Type) := (c : Call) → σ → Answer c → σ → Prop

/-- The triple of a program. The others move the state along the rely `R` between any two calls,
and once more before the result is looked at; each call of the program is in its guarantee `G`. -/
def Meets (exec : Exec σ Call Answer) (R G : σ → σ → Prop) (post : α → σ → Prop) :
    Prog Call Answer α → σ → Prop
  | .done a, s => ∀ s', R s s' → post a s'
  | .call c next, s => ∀ s', R s s' → ∀ x s'', exec c s' x s'' →
      G s' s'' ∧ Meets exec R G post (next x) s''

/-- What others do is a preorder. -/
structure Preordered (R : σ → σ → Prop) : Prop where
  refl : ∀ s, R s s
  trans : ∀ {s₁ s₂ s₃}, R s₁ s₂ → R s₂ s₃ → R s₁ s₃

variable {exec : Exec σ Call Answer} {R G : σ → σ → Prop} {post : α → σ → Prop}

theorem Meets.done (hR : Preordered R) {a : α} {s : σ} (h : Meets exec R G post (.done a) s) :
    post a s := h s (hR.refl s)

theorem Meets.call (hR : Preordered R) {c : Call} {next : Answer c → Prog Call Answer α} {s s' : σ}
    {x : Answer c} (h : Meets exec R G post (.call c next) s) (hcall : exec c s x s') :
    G s s' ∧ Meets exec R G post (next x) s' := h s (hR.refl s) x s' hcall

/-- A triple is stable under the rely. -/
theorem Meets.stable (hR : Preordered R) {p : Prog Call Answer α} {s s' : σ}
    (h : Meets exec R G post p s) (hmove : R s s') : Meets exec R G post p s' := by
  cases p with
  | done a => exact fun t ht => h t (hR.trans hmove ht)
  | call c next => exact fun t ht => h t (hR.trans hmove ht)

theorem Meets.mono {post' : α → σ → Prop} (hpost : ∀ a s, post a s → post' a s)
    {p : Prog Call Answer α} {s : σ} (h : Meets exec R G post p s) : Meets exec R G post' p s := by
  induction p generalizing s with
  | done a => exact fun t ht => hpost a t (h t ht)
  | call c next ih =>
    intro t ht x t' hcall
    obtain ⟨hG, hnext⟩ := h t ht x t' hcall
    exact ⟨hG, ih x hnext⟩

theorem Meets.bind {f : α → Prog Call Answer β} {post' : β → σ → Prop} {p : Prog Call Answer α} {s : σ}
    (hR : Preordered R) (h : Meets exec R G (fun a s => Meets exec R G post' (f a) s) p s) :
    Meets exec R G post' (p.bind f) s := by
  induction p generalizing s with
  | done a => exact h.done hR
  | call c next ih =>
    intro t ht x t' hcall
    obtain ⟨hG, hnext⟩ := h t ht x t' hcall
    exact ⟨hG, ih x hnext⟩

end Triples

/-! ## Threads

The state is shared, and one call of one thread is one step. Besides the threads there may be an
environment, which no program describes. A thread that has ended, or that was killed, is started
with another program that is allowed to it. -/

/-- The state and the programs, each with a result of its own type. -/
structure State (τ : Type) (σ Call : Type) (Answer : Call → Type) (β : τ → Type) where
  world : σ
  progs : (t : τ) → Prog Call Answer (β t)

inductive Label (τ : Type)
  | env
  | call (t : τ)
  | start (t : τ)

section Threads

variable {τ σ Call : Type} [DecidableEq τ] {Answer : Call → Type} {β : τ → Type}

def State.goto (s : State τ σ Call Answer β) (t : τ) (p : Prog Call Answer (β t)) (w : σ) :
    State τ σ Call Answer β :=
  ⟨w, Function.update s.progs t p⟩

/-- A thread that is killed takes no more steps until it is started again. -/
inductive Step (exec : τ → Exec σ Call Answer) (env : σ → σ → Prop)
    (allowed : (t : τ) → Prog Call Answer (β t) → Prop) (s : State τ σ Call Answer β) :
    Label τ → State τ σ Call Answer β → Prop
  | env {w : σ} (h : env s.world w) : Step exec env allowed s .env { s with world := w }
  | call {t : τ} {c : Call} {next : Answer c → Prog Call Answer (β t)} {x : Answer c} {w : σ}
      (hprog : s.progs t = .call c next) (hcall : exec t c s.world x w) :
      Step exec env allowed s (.call t) (s.goto t (next x) w)
  | start {t : τ} {p : Prog Call Answer (β t)} (h : allowed t p) :
      Step exec env allowed s (.start t) (s.goto t p s.world)

variable {exec : τ → Exec σ Call Answer} {env : σ → σ → Prop}
  {allowed : (t : τ) → Prog Call Answer (β t) → Prop} {R G : τ → σ → σ → Prop} {Inv : σ → Prop}
  {s s' : State τ σ Call Answer β} {l : Label τ}

/-- Each thread keeps what the others rely on, and whatever may be started meets its triple. -/
structure Compatible (exec : τ → Exec σ Call Answer) (env : σ → σ → Prop)
    (allowed : (t : τ) → Prog Call Answer (β t) → Prop) (R G : τ → σ → σ → Prop) (Inv : σ → Prop) :
    Prop where
  preordered : ∀ t, Preordered (R t)
  outside : ∀ t w w', Inv w → env w w' → R t w w'
  others : ∀ t t' w w', t ≠ t' → Inv w → G t w w' → R t' w w'
  inv_outside : ∀ w w', Inv w → env w w' → Inv w'
  inv_own : ∀ t w w', Inv w → G t w w' → Inv w'
  started : ∀ t p w, Inv w → allowed t p → Meets (exec t) (R t) (G t) (fun _ _ => True) p w

/-- The invariant, and each thread is at a point where it still meets its triple. -/
structure Safe (exec : τ → Exec σ Call Answer) (R G : τ → σ → σ → Prop) (Inv : σ → Prop)
    (s : State τ σ Call Answer β) : Prop where
  inv : Inv s.world
  meets : ∀ t, Meets (exec t) (R t) (G t) (fun _ _ => True) (s.progs t) s.world

/-- What one step is to a thread that does not take it. -/
theorem rely_step (hc : Compatible exec env allowed R G Inv) (hsafe : Safe exec R G Inv s)
    (h : Step exec env allowed s l s') (t : τ) (hcall : l ≠ .call t) : R t s.world s'.world := by
  cases h with
  | env henv => exact hc.outside t _ _ hsafe.inv henv
  | @call t' c next x w hprog hdo =>
    have hne : t' ≠ t := fun heq => hcall (congrArg Label.call heq)
    have hmeets := hsafe.meets t'
    rw [hprog] at hmeets
    exact hc.others t' t _ _ hne hsafe.inv (hmeets.call (hc.preordered t') hdo).1
  | start hallowed => exact (hc.preordered t).refl _

/-- A thread that is not started anew goes on to meet its triple. -/
theorem meets_step (hc : Compatible exec env allowed R G Inv) (hsafe : Safe exec R G Inv s)
    (h : Step exec env allowed s l s') {t : τ} {post : β t → σ → Prop}
    (hmeets : Meets (exec t) (R t) (G t) post (s.progs t) s.world) (hstart : l ≠ .start t) :
    Meets (exec t) (R t) (G t) post (s'.progs t) s'.world := by
  have hrely := fun hcall => rely_step hc hsafe h t hcall
  cases h with
  | env henv => exact hmeets.stable (hc.preordered t) (hrely (by simp))
  | @call t' c next x w hprog hdo =>
    by_cases heq : t' = t
    · subst heq
      have hself : (s.goto t' (next x) w).progs t' = next x := Function.update_self _ _ _
      rw [hself]
      rw [hprog] at hmeets
      exact (hmeets.call (hc.preordered t') hdo).2
    · have hother : (s.goto t' (next x) w).progs t = s.progs t :=
        Function.update_of_ne (fun h => heq h.symm) _ _
      rw [hother]
      exact hmeets.stable (hc.preordered t) (hrely (fun h => heq (Label.call.inj h)))
  | @start t' p hallowed =>
    have hother : (s.goto t' p s.world).progs t = s.progs t :=
      Function.update_of_ne (fun heq => hstart (congrArg Label.start heq.symm)) _ _
    rw [hother]
    exact hmeets

theorem safe_step (hc : Compatible exec env allowed R G Inv) (hsafe : Safe exec R G Inv s)
    (h : Step exec env allowed s l s') : Safe exec R G Inv s' := by
  have hinv : Inv s'.world := by
    cases h with
    | env henv => exact hc.inv_outside _ _ hsafe.inv henv
    | @call t c next x w hprog hdo =>
      have hmeets := hsafe.meets t
      rw [hprog] at hmeets
      exact hc.inv_own t _ _ hsafe.inv (hmeets.call (hc.preordered t) hdo).1
    | start hallowed => exact hsafe.inv
  refine ⟨hinv, fun t => ?_⟩
  by_cases hstart : l = .start t
  · subst hstart
    cases h with
    | @start _ p hallowed =>
      have hself : (s.goto t p s.world).progs t = p := Function.update_self _ _ _
      rw [hself]
      exact hc.started t p _ hinv hallowed
  · exact meets_step hc hsafe h (hsafe.meets t) hstart

theorem safe_run (hc : Compatible exec env allowed R G Inv) (hsafe : Safe exec R G Inv s)
    {labels : List (Label τ)} (h : Run (Step exec env allowed) s labels s') : Safe exec R G Inv s' := by
  induction h with
  | nil => exact hsafe
  | snoc _ hlast ih => exact safe_step hc ih hlast

theorem meets_run (hc : Compatible exec env allowed R G Inv) (hsafe : Safe exec R G Inv s)
    {labels : List (Label τ)} (h : Run (Step exec env allowed) s labels s') {t : τ}
    {post : β t → σ → Prop} (hmeets : Meets (exec t) (R t) (G t) post (s.progs t) s.world)
    (hstart : Label.start t ∉ labels) :
    Meets (exec t) (R t) (G t) post (s'.progs t) s'.world := by
  induction h with
  | nil => exact hmeets
  | @snoc labels s₁ s₂ l hrun hlast ih =>
    rw [List.mem_append, List.mem_singleton] at hstart
    have hsafe₁ := safe_run hc hsafe hrun
    exact meets_step hc hsafe₁ hlast (ih (fun hl => hstart (Or.inl hl)))
      (fun hl => hstart (Or.inr hl.symm))

/-- From its start on, a thread that was allowed to start meets what can be shown of it alone. -/
theorem result_of_run (hc : Compatible exec env allowed R G Inv) (hsafe : Safe exec R G Inv s)
    {t : τ} {p : Prog Call Answer (β t)} {labels : List (Label τ)} {post : β t → σ → Prop} {r : β t}
    (hallowed : allowed t p) (hmeets : Meets (exec t) (R t) (G t) post p s.world)
    (h : Run (Step exec env allowed) (s.goto t p s.world) labels s') (hstart : Label.start t ∉ labels)
    (hdone : s'.progs t = .done r) : post r s'.world := by
  have hself : (s.goto t p s.world).progs t = p := Function.update_self _ _ _
  have hstarted : Meets (exec t) (R t) (G t) post ((s.goto t p s.world).progs t) s.world := by
    rw [hself]
    exact hmeets
  have hresult := meets_run hc (safe_step hc hsafe (Step.start hallowed)) h hstarted hstart
  rw [hdone] at hresult
  exact hresult.done (hc.preordered t)

end Threads

end F2bguard.RelyGuarantee
