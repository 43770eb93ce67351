/-
The first rows of a list in some order.

`first r k l` are the `k` elements of `l` that come first when `l` is sorted by `r`, and `rest`
are the others. Two orders have the same first elements exactly when the first ones of one order
come before its others in the other order too (`first_same_iff`); a group of elements with a
group before it and a group behind it is among the first exactly when there is room for both
(`middle_first_iff`).
-/
import Mathlib.Data.List.Sort
import Mathlib.Data.List.Nodup

set_option autoImplicit false

namespace F2bguard.Ranking

variable {ρ : Type*}

/-- The `k` first elements in the order `r`. -/
def first (r : ρ → ρ → Prop) [DecidableRel r] (k : ℕ) (l : List ρ) : List ρ :=
  (l.insertionSort r).take k

/-- The elements behind the `k` first ones. -/
def rest (r : ρ → ρ → Prop) [DecidableRel r] (k : ℕ) (l : List ρ) : List ρ :=
  (l.insertionSort r).drop k

/-- On the elements of a list, `r` is antisymmetric. Elsewhere it need not be: elements that the
order does not tell apart may exist, as long as the list holds only one of them. -/
def AntisymmOn (r : ρ → ρ → Prop) (l : List ρ) : Prop :=
  ∀ x y, x ∈ l → y ∈ l → r x y → r y x → x = y

section First

variable {r : ρ → ρ → Prop} [DecidableRel r] {k : ℕ} {l : List ρ}

theorem first_append_rest : first r k l ++ rest r k l = l.insertionSort r := List.take_append_drop _ _

theorem perm_first_rest : (first r k l ++ rest r k l).Perm l := by
  rw [first_append_rest]
  exact List.perm_insertionSort r l

theorem mem_first_or_rest {x : ρ} : x ∈ first r k l ∨ x ∈ rest r k l ↔ x ∈ l := by
  rw [← List.mem_append]
  exact perm_first_rest.mem_iff

theorem mem_of_first {x : ρ} (h : x ∈ first r k l) : x ∈ l := mem_first_or_rest.mp (.inl h)

theorem not_mem_rest_iff (hl : l.Nodup) {x : ρ} (hx : x ∈ l) : x ∉ rest r k l ↔ x ∈ first r k l := by
  have hdisjoint : ∀ y ∈ first r k l, y ∉ rest r k l :=
    fun y hy hy' => (List.nodup_append'.mp (perm_first_rest.nodup_iff.mpr hl)).2.2 hy hy'
  constructor
  · intro hnot
    exact (mem_first_or_rest.mpr hx).resolve_right hnot
  · exact hdisjoint x

theorem first_of_length_le (h : l.length ≤ k) {x : ρ} : x ∈ first r k l ↔ x ∈ l := by
  rw [first, List.take_of_length_le (by rwa [List.length_insertionSort]), List.mem_insertionSort]

variable [Std.Total r] [IsTrans ρ r]

/-- A sorted list of the same elements is what sorting gives. -/
theorem sort_eq (hanti : AntisymmOn r l) {l' : List ρ} (hperm : l'.Perm l) (hsorted : l'.Pairwise r) :
    l.insertionSort r = l' := by
  refine List.Perm.eq_of_pairwise (fun x y hx hy => ?_) (List.pairwise_insertionSort r l) hsorted
    ((List.perm_insertionSort r l).trans hperm.symm)
  exact hanti x y ((List.mem_insertionSort r).mp hx) (hperm.mem_iff.mp hy)

/-- What comes first comes before the rest. -/
theorem rel_of_first_rest {x y : ρ} (hx : x ∈ first r k l) (hy : y ∈ rest r k l) : r x y := by
  have hsorted := List.pairwise_insertionSort r l
  rw [← first_append_rest (k := k), List.pairwise_append] at hsorted
  exact hsorted.2.2 x hx y hy

/-- The elements of `a` come before those of `b`, and both before those of `c`. -/
theorem middle_first_iff (hl : l.Nodup) (hanti : AntisymmOn r l) {a b c : List ρ}
    (hperm : (a ++ (b ++ c)).Perm l) (hab : ∀ x ∈ a, ∀ y ∈ b, r x y) (hac : ∀ x ∈ a, ∀ y ∈ c, r x y)
    (hbc : ∀ x ∈ b, ∀ y ∈ c, r x y) (hb : b ≠ []) :
    (∀ x ∈ b, x ∈ first r k l) ↔ a.length + b.length ≤ k := by
  have hsort : l.insertionSort r = a.insertionSort r ++ (b.insertionSort r ++ c.insertionSort r) := by
    refine sort_eq hanti ?_ ?_
    · refine List.Perm.trans ?_ hperm
      exact (List.perm_insertionSort r a).append
        ((List.perm_insertionSort r b).append (List.perm_insertionSort r c))
    · simp only [List.pairwise_append, List.pairwise_insertionSort, List.mem_insertionSort,
        List.mem_append, true_and]
      refine ⟨hbc, fun x hx y hy => ?_⟩
      rcases hy with hy | hy
      · exact hab x hx y hy
      · exact hac x hx y hy
  constructor
  · intro hall
    by_contra hroom
    -- the last element of the group is cut off
    obtain ⟨before, last, hlast⟩ : ∃ before last, b.insertionSort r = before ++ [last] := by
      rcases List.eq_nil_or_concat (b.insertionSort r) with hnil | ⟨before, last, hlast⟩
      · have hlength := congrArg List.length hnil
        rw [List.length_insertionSort] at hlength
        exact absurd (List.length_eq_zero_iff.mp hlength) hb
      · exact ⟨before, last, by rw [hlast, List.concat_eq_append]⟩
    have hmem : last ∈ b := by
      rw [← List.mem_insertionSort r, hlast]
      exact List.mem_append_right _ List.mem_cons_self
    have hbefore : before.length + 1 = b.length := by
      rw [← List.length_insertionSort r b, hlast, List.length_append, List.length_singleton]
    refine (not_mem_rest_iff hl (mem_of_first (hall last hmem))).mpr (hall last hmem) ?_
    rw [rest, hsort, hlast, List.append_assoc, ← List.append_assoc, List.drop_append_of_le_length]
    · exact List.mem_append_right _ List.mem_cons_self
    · rw [List.length_append, List.length_insertionSort]
      omega
  · intro hroom x hx
    rw [first, hsort, ← List.append_assoc, List.take_append]
    refine List.mem_append_left _ ?_
    rw [List.take_of_length_le]
    · exact List.mem_append_right _ ((List.mem_insertionSort r).mpr hx)
    · rwa [List.length_append, List.length_insertionSort, List.length_insertionSort]

/-- Two orders agree on which `k` elements come first exactly when those of one of them come
before its others in the other order too. -/
theorem first_same_iff {s : ρ → ρ → Prop} [DecidableRel s] (hl : l.Nodup) (hanti : AntisymmOn r l) :
    (∀ x, x ∈ first r k l ↔ x ∈ first s k l) ↔
      ∀ x ∈ first s k l, ∀ y ∈ l, y ∉ first s k l → r x y := by
  constructor
  · intro hsame x hx y hy hnot
    refine rel_of_first_rest (k := k) ((hsame x).mpr hx) ?_
    exact (mem_first_or_rest.mpr hy).resolve_left fun hy => hnot ((hsame y).mp hy)
  · intro hbefore
    have hsort : l.insertionSort r =
        (first s k l).insertionSort r ++ (rest s k l).insertionSort r := by
      refine sort_eq hanti ?_ ?_
      · exact ((List.perm_insertionSort r _).append (List.perm_insertionSort r _)).trans
          perm_first_rest
      · simp only [List.pairwise_append, List.pairwise_insertionSort, List.mem_insertionSort,
          true_and]
        intro x hx y hy
        have hyl : y ∈ l := mem_first_or_rest.mp (.inr hy)
        exact hbefore x hx y hyl fun hy' => (not_mem_rest_iff hl hyl).mpr hy' hy
    have hlength : (first s k l).length = min k l.length := by
      rw [first, List.length_take, List.length_insertionSort]
    intro x
    rcases le_total l.length k with hle | hle
    · rw [first_of_length_le hle, first_of_length_le hle]
    · have htake : first r k l = (first s k l).insertionSort r := by
        rw [first, hsort, List.take_left']
        rw [List.length_insertionSort, hlength, min_eq_left hle]
      rw [htake, List.mem_insertionSort]

end First

end F2bguard.Ranking
