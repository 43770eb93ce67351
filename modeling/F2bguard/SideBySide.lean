/-
Two computations that may fail, side by side.

`Alike R x y` says that `x` and `y` fail with the same error or return results that `R` relates.
Sequencing and loops keep it. The relation of a loop may speak about the part of the list that
is still to come, which is what an invariant like "the rest fits" needs.

The errors are compared, too, so that a caller who catches one goes on alike in both, and a loop
that stops at an item in one stops at the same item in the other.
-/
import Mathlib.Tactic

set_option autoImplicit false

namespace F2bguard.SideBySide

variable {ε α β α' β' ι : Type*}

/-- The same error, or related results. -/
inductive Alike (R : α → β → Prop) : Except ε α → Except ε β → Prop
  | error (e : ε) : Alike R (.error e) (.error e)
  | ok {a : α} {b : β} (h : R a b) : Alike R (.ok a) (.ok b)

theorem alike_ok {R : α → β → Prop} {a : α} {b : β} :
    Alike R (.ok a : Except ε α) (.ok b) ↔ R a b := by
  constructor
  · intro h
    cases h with
    | ok h => exact h
  · exact .ok

namespace Alike

variable {R : α → β → Prop} {S : α' → β' → Prop} {x : Except ε α} {y : Except ε β}

theorem imp {R' : α → β → Prop} (h : Alike R x y) (himp : ∀ a b, R a b → R' a b) :
    Alike R' x y := by
  cases h with
  | error e => exact .error e
  | ok h => exact .ok (himp _ _ h)

theorem bind {f : α → Except ε α'} {g : β → Except ε β'} (h : Alike R x y)
    (hstep : ∀ a b, R a b → Alike S (f a) (g b)) : Alike S (x.bind f) (y.bind g) := by
  cases h with
  | error e => exact .error e
  | ok h => exact hstep _ _ h

theorem map {f : α → α'} {g : β → β'} (h : Alike R x y) (hmap : ∀ a b, R a b → S (f a) (g b)) :
    Alike S (x.map f) (y.map g) := by
  cases h with
  | error e => exact .error e
  | ok h => exact .ok (hmap _ _ h)

/-- What is related are the results. -/
theorem with_eq (h : Alike R x y) : Alike (fun a b => R a b ∧ x = .ok a ∧ y = .ok b) x y := by
  cases h with
  | error e => exact .error e
  | ok h => exact .ok ⟨h, rfl, rfl⟩

/-- The other computation returns as well. -/
theorem of_ok {a : α} (h : Alike R (.ok a) y) : ∃ b, y = .ok b ∧ R a b := by
  cases h with
  | ok h => exact ⟨_, rfl, h⟩

end Alike

/-- Two loops over one list, related by what is still to come. One turn has to keep the relation,
from an item and the rest to the rest. -/
theorem foldlM_alike {R : List ι → α → β → Prop} {f : α → ι → Except ε α} {g : β → ι → Except ε β}
    (hstep : ∀ x xs a b, R (x :: xs) a b → Alike (R xs) (f a x) (g b x)) {xs : List ι} :
    ∀ {a : α} {b : β}, R xs a b → Alike (R []) (xs.foldlM f a) (xs.foldlM g b) := by
  induction xs with
  | nil => intro a b h; exact .ok h
  | cons x xs ih =>
    intro a b h
    rw [List.foldlM_cons, List.foldlM_cons]
    exact (hstep x xs a b h).bind (fun _ _ => ih)

end F2bguard.SideBySide
