/-
Partial maps that change by assignment, release and replacement.

A ban puts a claim under its identity, an unban takes it away, a snapshot says what
the whole set is. The receiver applies such changes to its rows and the sender
predicts them from its own; both are compared with the plain meaning of a sequence
of changes, which is a fold over partial maps. The development of that meaning does
not depend on what the keys and values are.
-/
import Mathlib.Tactic

set_option autoImplicit false

namespace F2bguard.Lifecycle

variable {κ ν : Type*}

/-- One change of a partial map. -/
inductive Change (κ ν : Type*)
  | assign (k : κ) (v : ν)
  | release (k : κ)
  | replace (entries : List (κ × ν))
  deriving DecidableEq

variable [DecidableEq κ]

/-- The map whose entries are given by a list; the first entry of a key counts. -/
def ofEntries (entries : List (κ × ν)) : κ → Option ν :=
  fun k => (entries.find? (fun entry => entry.1 = k)).map Prod.snd

/-- What a change makes of a map. A replacement forgets what was there. -/
def Change.apply : Change κ ν → (κ → Option ν) → κ → Option ν
  | .assign k v, m => Function.update m k (some v)
  | .release k, m => Function.update m k none
  | .replace entries, _ => ofEntries entries

/-- The meaning of a sequence of changes, applied from left to right. -/
def applyAll (m : κ → Option ν) (changes : List (Change κ ν)) : κ → Option ν :=
  changes.foldl (fun m change => change.apply m) m

@[simp] theorem applyAll_nil (m : κ → Option ν) : applyAll m [] = m := rfl

@[simp] theorem applyAll_cons (m : κ → Option ν) (c : Change κ ν) (cs : List (Change κ ν)) :
    applyAll m (c :: cs) = applyAll (c.apply m) cs := rfl

theorem applyAll_append (m : κ → Option ν) (cs ds : List (Change κ ν)) :
    applyAll m (cs ++ ds) = applyAll (applyAll m cs) ds := by
  simp [applyAll, List.foldl_append]

/-- The change puts the value under the key. -/
def Change.Gives : Change κ ν → κ → ν → Prop
  | .assign k v, k', v' => k' = k ∧ v' = v
  | .release _, _, _ => False
  | .replace entries, k', v' => (k', v') ∈ entries

theorem Change.apply_eq_some {c : Change κ ν} {m : κ → Option ν} {k : κ} {v : ν}
    (h : c.apply m k = some v) : m k = some v ∨ c.Gives k v := by
  cases c with
  | assign k' v' =>
    rw [Change.apply, Function.update_apply] at h
    split at h
    · rename_i hk
      exact Or.inr ⟨hk, (Option.some.inj h).symm⟩
    · exact Or.inl h
  | release k' =>
    rw [Change.apply, Function.update_apply] at h
    split at h
    · cases h
    · exact Or.inl h
  | replace entries =>
    obtain ⟨entry, hfind, rfl⟩ := Option.map_eq_some_iff.mp h
    have hk := List.find?_some hfind
    rw [decide_eq_true_eq] at hk
    rw [← hk]
    exact Or.inr (List.mem_of_find?_eq_some hfind)

/-- What a sequence of changes leaves was there before or was put there by one of them. -/
theorem applyAll_eq_some {changes : List (Change κ ν)} : ∀ {m : κ → Option ν} {k : κ} {v : ν},
    applyAll m changes k = some v → m k = some v ∨ ∃ c ∈ changes, c.Gives k v := by
  induction changes with
  | nil => intro m k v h; exact Or.inl h
  | cons c cs ih =>
    intro m k v h
    rcases ih h with hm | ⟨d, hd, hgives⟩
    · exact (Change.apply_eq_some hm).imp id (fun hc => ⟨c, List.mem_cons_self, hc⟩)
    · exact Or.inr ⟨d, List.mem_cons_of_mem _ hd, hgives⟩

theorem ofEntries_eq_some {entries : List (κ × ν)} (h : (entries.map Prod.fst).Nodup) {k : κ}
    {v : ν} : ofEntries entries k = some v ↔ (k, v) ∈ entries := by
  unfold ofEntries
  rw [Option.map_eq_some_iff]
  constructor
  · rintro ⟨entry, hfind, rfl⟩
    have hk := List.find?_some hfind
    have hmem := List.mem_of_find?_eq_some hfind
    simp only [decide_eq_true_eq] at hk
    rwa [← hk]
  · intro hmem
    refine ⟨(k, v), ?_, rfl⟩
    induction entries with
    | nil => simp at hmem
    | cons entry entries ih =>
      rw [List.map_cons, List.nodup_cons] at h
      rcases List.mem_cons.mp hmem with heq | hmem'
      · rw [← heq]
        simp
      · have hne : entry.1 ≠ k := by
          intro hk
          exact h.1 (hk ▸ List.mem_map_of_mem hmem')
        rw [List.find?_cons_of_neg (by simpa using hne)]
        exact ih h.2 hmem'

end F2bguard.Lifecycle
