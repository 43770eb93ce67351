/-
Runs of labelled transition systems.

A system is a step relation between states, labelled with what happens in the step. A run
collects the labels, so a property of a run may speak of its history: an invariant is a
relation between the labels so far and the state (`Run.invariant`). Nothing here knows
what the states and labels are.

A run grows at its end, so the induction over a run meets the newest step first and an invariant
is proved by one case per step. Runs are compared in three ways: a run of one system as a run of
another with the same states (`Run.imp`), a run that is cut at a label (`Run.of_append`,
`Run.exists_step_of_mem`), and a run whose steps are whole runs of another system that sees the
same (`Run.simulate`).
-/
import Mathlib.Tactic

set_option autoImplicit false

namespace F2bguard.Runs

variable {σ α : Type*}

/-- A run from a state to a state, with the labels of its steps in order. -/
inductive Run (step : σ → α → σ → Prop) (s : σ) : List α → σ → Prop
  | nil : Run step s [] s
  | snoc {labels : List α} {s₁ s₂ : σ} {a : α} (hrun : Run step s labels s₁)
      (hstep : step s₁ a s₂) : Run step s (labels ++ [a]) s₂

namespace Run

variable {step : σ → α → σ → Prop} {s s₁ s₂ : σ}

theorem single {a : α} (h : step s a s₁) : Run step s [a] s₁ := Run.nil.snoc h

/-- A run is one of another system when that system can take each of its steps. -/
theorem imp {step' : σ → α → σ → Prop} {labels : List α} (hrun : Run step s labels s₁)
    (h : ∀ t a t', a ∈ labels → step t a t' → step' t a t') : Run step' s labels s₁ := by
  induction hrun with
  | nil => exact nil
  | snoc _ hstep ih =>
    refine (ih fun t a t' ha => h t a t' (List.mem_append_left _ ha)).snoc (h _ _ _ ?_ hstep)
    exact List.mem_append_right _ (List.mem_singleton.mpr rfl)

theorem append {as bs : List α} (h₁ : Run step s as s₁) (h₂ : Run step s₁ bs s₂) :
    Run step s (as ++ bs) s₂ := by
  induction h₂ with
  | nil => rwa [List.append_nil]
  | snoc _ hstep ih =>
    rw [← List.append_assoc]
    exact ih.snoc hstep

theorem cons {a : α} {as : List α} (h : step s a s₁) (hrun : Run step s₁ as s₂) :
    Run step s (a :: as) s₂ := (single h).append hrun

/-- A run of two lists of labels passes a state in between. -/
theorem of_append {as : List α} {s' : σ} : ∀ {bs : List α}, Run step s (as ++ bs) s' →
    ∃ s₁, Run step s as s₁ ∧ Run step s₁ bs s' := by
  intro bs
  induction bs using List.reverseRecOn generalizing s' with
  | nil =>
    intro h
    rw [List.append_nil] at h
    exact ⟨s', h, nil⟩
  | append_singleton bs b ih =>
    intro h
    rw [← List.append_assoc] at h
    generalize hlabels : as ++ bs ++ [b] = labels at h
    cases h with
    | nil => simp at hlabels
    | @snoc labels s₂ _ a hrun hlast =>
      obtain ⟨rfl, hb⟩ := List.append_inj' hlabels rfl
      cases hb
      obtain ⟨s₁, has, hbs⟩ := ih hrun
      exact ⟨s₁, has, hbs.snoc hlast⟩

theorem of_cons {a : α} {as : List α} {s' : σ} (h : Run step s (a :: as) s') :
    ∃ s₁, step s a s₁ ∧ Run step s₁ as s' := by
  obtain ⟨s₁, hfirst, hrest⟩ := of_append (show Run step s ([a] ++ as) s' from h)
  generalize hlabels : [a] = labels at hfirst
  cases hfirst with
  | nil => cases hlabels
  | @snoc labels s₂ _ b hrun hlast =>
    obtain ⟨rfl, hb⟩ := List.append_inj' (show [] ++ [a] = labels ++ [b] from hlabels) rfl
    cases hb
    generalize hnone : ([] : List α) = labels at hrun
    cases hrun with
    | nil => exact ⟨s₁, hlast, hrest⟩
    | snoc hrun hlast' => simp at hnone

/-- What holds at the start of a run and is kept by each step holds at its end. The property may
speak of the labels so far. -/
theorem invariant {P : List α → σ → Prop} (hinit : P [] s)
    (hstep : ∀ labels s₁ a s₂, Run step s labels s₁ → P labels s₁ → step s₁ a s₂ →
      P (labels ++ [a]) s₂)
    {labels : List α} {s' : σ} (h : Run step s labels s') : P labels s' := by
  induction h with
  | nil => exact hinit
  | snoc hrun hlast ih => exact hstep _ _ _ _ hrun ih hlast

/-- A step of a run is taken between two states that the run passes. This is how a statement about
one event gets hold of the state it happened in. -/
theorem exists_step_of_mem {labels : List α} {s' : σ} (h : Run step s labels s') {a : α}
    (ha : a ∈ labels) :
    ∃ as bs s₁ s₂, labels = as ++ a :: bs ∧ Run step s as s₁ ∧ step s₁ a s₂ ∧
      Run step s₂ bs s' := by
  induction h with
  | nil => simp at ha
  | @snoc labels s₁ s₂ b hrun hstep ih =>
    by_cases hmem : a ∈ labels
    · obtain ⟨as, bs, t₁, t₂, rfl, h₁, ht, h₂⟩ := ih hmem
      exact ⟨as, bs ++ [b], t₁, t₂, by simp, h₁, ht, h₂.snoc hstep⟩
    · have hab : a = b := by
        rcases List.mem_append.mp ha with h | h
        · exact absurd h hmem
        · exact List.mem_singleton.mp h
      subst hab
      exact ⟨labels, [], s₁, s₂, by simp, hrun, hstep, Run.nil⟩

/-- A system whose every step is a run of another one, with the same observations, does as a whole
what the other one can do. -/
theorem simulate {τ β γ : Type*} {step' : τ → β → τ → Prop} {view : σ → τ} {seen : α → List γ}
    {seen' : β → List γ}
    (hstep : ∀ s₁ a s₂, step s₁ a s₂ →
      ∃ bs, Run step' (view s₁) bs (view s₂) ∧ bs.flatMap seen' = seen a)
    {labels : List α} {s' : σ} (h : Run step s labels s') :
    ∃ bs, Run step' (view s) bs (view s') ∧ bs.flatMap seen' = labels.flatMap seen := by
  induction h with
  | nil => exact ⟨[], Run.nil, rfl⟩
  | @snoc labels s₁ s₂ a _ hlast ih =>
    obtain ⟨bs, hrun, hbs⟩ := ih
    obtain ⟨cs, hrun', hcs⟩ := hstep s₁ a s₂ hlast
    refine ⟨bs ++ cs, hrun.append hrun', ?_⟩
    rw [List.flatMap_append, List.flatMap_append, hbs, hcs, List.flatMap_singleton]

end Run

end F2bguard.Runs
