/-
Merged intervals and how to look a value up in them.

An interval is a pair of bounds, both of which belong to it. One pass over intervals in the
order of their lower bounds merges those that overlap or touch (`merge_covers`), and what is
left has gaps (`Separated`). In such a list one binary search finds the only interval that
can hold a value (`covers_iff_bisect`), and no shorter list covers the same values
(`Separated.length_le`). The values may be of any linear order with successors.
-/
import Mathlib.Data.List.Sort
import Mathlib.Data.List.Nodup
import Mathlib.Order.SuccPred.Basic

set_option autoImplicit false

namespace F2bguard.Intervals

variable {α : Type*} [LinearOrder α]

/-- The interval holds the value. -/
def Within (i : α × α) (a : α) : Prop := i.1 ≤ a ∧ a ≤ i.2

/-- Some interval of the list holds the value. The order and the number of the intervals do not
come into it. -/
def Covers (l : List (α × α)) (a : α) : Prop := ∃ i ∈ l, Within i a

theorem covers_nil (a : α) : ¬ Covers [] a := by
  rintro ⟨i, hi, -⟩
  cases hi

theorem covers_cons {i : α × α} {l : List (α × α)} {a : α} :
    Covers (i :: l) a ↔ Within i a ∨ Covers l a := by
  simp only [Covers, List.exists_mem_cons_iff]

theorem Covers.of_perm {l l' : List (α × α)} (h : l.Perm l') {a : α} : Covers l a ↔ Covers l' a := by
  simp only [Covers, h.mem_iff]

/-! ## Binary search

The search is the one of Python's `bisect` module. In a sorted list it ends at the only place that
divides the list at the value. -/

/-- The loop of `bisect_right` between `lo` and `hi`; each turn brings them closer. -/
def bisect_loop (a : List α) (x : α) : ℕ → ℕ → ℕ → ℕ
  | 0, lo, _ => lo
  | fuel + 1, lo, hi =>
      if lo < hi then
        let mid := (lo + hi) / 2
        if a[mid]?.any (fun y => x < y) then bisect_loop a x fuel lo mid
        else bisect_loop a x fuel (mid + 1) hi
      else lo

/-- The place after all elements of a sorted list that are not above a value. -/
def bisect_right (a : List α) (x : α) : ℕ := bisect_loop a x a.length 0 a.length

/-- The place `r` divides the list. -/
structure Divides (a : List α) (x : α) (r : ℕ) : Prop where
  le : r ≤ a.length
  below : ∀ i y, a[i]? = some y → i < r → y ≤ x
  above : ∀ i y, a[i]? = some y → r ≤ i → x < y

theorem bisect_loop_divides {a : List α} (hsorted : a.Pairwise (· ≤ ·)) {x : α} : ∀ {fuel lo hi : ℕ},
    hi - lo ≤ fuel → lo ≤ hi → hi ≤ a.length → (∀ i y, a[i]? = some y → i < lo → y ≤ x) →
      (∀ i y, a[i]? = some y → hi ≤ i → x < y) → Divides a x (bisect_loop a x fuel lo hi) := by
  intro fuel
  induction fuel with
  | zero =>
    intro lo hi hfuel hle hlen hbelow habove
    have heq : lo = hi := by omega
    subst heq
    exact ⟨hlen, hbelow, habove⟩
  | succ fuel ih =>
    intro lo hi hfuel hle hlen hbelow habove
    rw [bisect_loop]
    by_cases hlt : lo < hi
    swap
    · rw [if_neg hlt]
      have heq : lo = hi := by omega
      subst heq
      exact ⟨hlen, hbelow, habove⟩
    rw [if_pos hlt]
    dsimp only
    have hmid : (lo + hi) / 2 < a.length := by omega
    have hget : a[(lo + hi) / 2]? = some a[(lo + hi) / 2] := List.getElem?_eq_getElem hmid
    -- elements stand in the order of their places
    have horder : ∀ {i j : ℕ} {y z : α}, a[i]? = some y → a[j]? = some z → i ≤ j → y ≤ z := by
      intro i j y z hy hz hij
      obtain ⟨hi', rfl⟩ := List.getElem?_eq_some_iff.mp hy
      obtain ⟨hj', rfl⟩ := List.getElem?_eq_some_iff.mp hz
      rcases hij.eq_or_lt with rfl | hij
      · exact le_rfl
      · exact List.pairwise_iff_getElem.mp hsorted i j hi' hj' hij
    rw [hget, Option.any_some]
    -- the half that is kept
    by_cases hx : x < a[(lo + hi) / 2]
    · rw [if_pos (decide_eq_true hx)]
      refine ih (by omega) (by omega) (by omega) hbelow ?_
      intro i y hy hi'
      exact hx.trans_le (horder hget hy hi')
    · rw [if_neg (by simpa using hx)]
      refine ih (by omega) (by omega) hlen ?_ habove
      intro i y hy hi'
      exact (horder hy hget (by omega)).trans (not_lt.mp hx)

theorem bisect_right_divides {a : List α} (hsorted : a.Pairwise (· ≤ ·)) (x : α) :
    Divides a x (bisect_right a x) := by
  refine bisect_loop_divides hsorted le_rfl (Nat.zero_le _) le_rfl ?_ ?_
  · intro i y _ hi
    omega
  · intro i y hy hi
    obtain ⟨hi', -⟩ := List.getElem?_eq_some_iff.mp hy
    omega

/-! ## Gaps

Between neighbours of a separated list there is a value that none of them holds, so each interval
has to be covered by a different interval of any other list. That gives the lower bound on the
length. -/

section Gaps

variable [SuccOrder α]

/-- No interval is empty, they stand in order, and a value is left out between neighbours. -/
structure Separated (l : List (α × α)) : Prop where
  nonempty : ∀ i ∈ l, i.1 ≤ i.2
  gaps : l.Pairwise (fun i j => Order.succ i.2 < j.1)

theorem Separated.starts_sorted {l : List (α × α)} (h : Separated l) :
    (l.map Prod.fst).Pairwise (· ≤ ·) := by
  rw [List.pairwise_map]
  refine h.gaps.imp_of_mem ?_
  intro i j hi _ hgap
  exact (h.nonempty i hi).trans ((Order.le_succ i.2).trans hgap.le)

/-- Only the interval before the place that `bisect_right` finds can hold the value. -/
theorem covers_iff_bisect {l : List (α × α)} (h : Separated l) (a : α) :
    Covers l a ↔ ∃ position i, bisect_right (l.map Prod.fst) a = position + 1 ∧
      l[position]? = some i ∧ a ≤ i.2 := by
  have hdivides := bisect_right_divides h.starts_sorted a
  have hstart : ∀ {k : ℕ} {i : α × α}, l[k]? = some i → (l.map Prod.fst)[k]? = some i.1 := by
    intro k i hi
    rw [List.getElem?_map, hi, Option.map_some]
  constructor
  · rintro ⟨i, hi, hlo, hhi⟩
    obtain ⟨k, hk⟩ := List.getElem?_of_mem hi
    have hbelow : k < bisect_right (l.map Prod.fst) a := by
      by_contra hnot
      exact absurd hlo (not_le.mpr (hdivides.above k i.1 (hstart hk) (not_lt.mp hnot)))
    obtain ⟨position, hposition⟩ := Nat.exists_eq_succ_of_ne_zero (Nat.ne_of_gt (Nat.zero_lt_of_lt hbelow))
    refine ⟨position, i, hposition, ?_, hhi⟩
    -- an interval that starts later and not above the value would have to leave a gap
    by_contra hne
    have hlt : k < position := by
      rcases Nat.lt_or_ge k position with hlt | hge
      · exact hlt
      · have heq : k = position := by omega
        rw [heq] at hk
        exact absurd hk hne
    have hlen : position < l.length := by
      have := hdivides.le
      rw [List.length_map] at this
      omega
    have hget : l[position]? = some l[position] := List.getElem?_eq_getElem hlen
    have hle := hdivides.below position _ (hstart hget) (by omega)
    obtain ⟨hk', rfl⟩ := List.getElem?_eq_some_iff.mp hk
    have hgap := List.pairwise_iff_getElem.mp h.gaps k position hk' hlen hlt
    exact absurd hhi (not_le.mpr (((Order.le_succ _).trans_lt hgap).trans_le hle))
  · rintro ⟨position, i, hposition, hi, hhi⟩
    exact ⟨i, List.mem_of_getElem? hi, hdivides.below position i.1 (hstart hi) (by omega), hhi⟩

/-- A list with gaps is as short as any list that covers the same values up to its bounds. -/
theorem Separated.length_le [NoMaxOrder α] {l c : List (α × α)} (h : Separated l)
    (hsame : ∀ i ∈ l, ∀ a ≤ i.2, (Covers l a ↔ Covers c a)) : l.length ≤ c.length := by
  have hchoose : ∀ i ∈ l, ∃ j ∈ c, Within j i.1 := by
    intro i hi
    exact (hsame i hi i.1 (h.nonempty i hi)).mp ⟨i, hi, le_rfl, h.nonempty i hi⟩
  choose! f hf hwithin using hchoose
  -- one interval of the other list cannot reach over a gap
  have hdisjoint : l.Pairwise (fun i j => f i ≠ f j) := by
    refine h.gaps.imp_of_mem ?_
    intro i j hi hj hgap heq
    have hlt := Order.lt_succ i.2
    have hcovers : Covers c (Order.succ i.2) := by
      refine ⟨f i, hf i hi, ?_, ?_⟩
      · exact (hwithin i hi).1.trans ((h.nonempty i hi).trans hlt.le)
      · rw [heq]
        exact hgap.le.trans (hwithin j hj).2
    obtain ⟨k, hk, hlo, hhi⟩ := (hsame j hj _ (hgap.le.trans (h.nonempty j hj))).mpr hcovers
    have hcompare : ∀ {x y : α × α}, x ∈ l → y ∈ l → x = y ∨ Order.succ x.2 < y.1 ∨
        Order.succ y.2 < x.1 := by
      intro x y hx hy
      by_cases hxy : x = y
      · exact Or.inl hxy
      · exact Or.inr (List.Pairwise.forall_of_forall_of_flip (R := fun x y => x ≠ y →
          Order.succ x.2 < y.1 ∨ Order.succ y.2 < x.1) (fun x _ hne => absurd rfl hne)
          (h.gaps.imp (fun hg _ => Or.inl hg)) (h.gaps.imp (fun hg _ => Or.inr hg)) hx hy hxy)
    rcases hcompare hi hk with rfl | hik | hki
    · exact absurd hhi (not_le.mpr hlt)
    · exact absurd hlo (not_le.mpr hik)
    · have := (Order.le_succ k.2).trans_lt (hki.trans_le ((h.nonempty i hi).trans hlt.le))
      exact absurd hhi (not_le.mpr this)
  have hnodup : (l.map f).Nodup := List.pairwise_map.mpr hdisjoint
  have hsubset : l.map f ⊆ c := by
    intro j hj
    obtain ⟨i, hi, rfl⟩ := List.mem_map.mp hj
    exact hf i hi
  have := (List.subperm_of_subset hnodup hsubset).length_le
  rwa [List.length_map] at this

/-! ## Merging

The pass keeps the merged intervals newest first, since only the newest can still grow. What it
keeps is separated and covers the intervals it has seen. -/

/-- One turn of the loop over the sorted intervals; the merged ones are newest first. An interval
that begins right after the newest one is joined to it, as no value lies in between. -/
def merge_range (merged : List (α × α)) (range : α × α) : List (α × α) :=
  match merged with
  | [] => [range]
  | last :: before =>
      if Order.succ last.2 < range.1 then range :: last :: before
      else if last.2 < range.2 then (last.1, range.2) :: before
      else last :: before

/-- The merged intervals, in order. -/
def merge (ranges : List (α × α)) : List (α × α) := (ranges.foldl merge_range []).reverse

/-- The merged intervals so far, newest first, none of which starts above a bound. -/
structure Merged (merged : List (α × α)) (bound : α) : Prop where
  nonempty : ∀ i ∈ merged, i.1 ≤ i.2
  gaps : merged.Pairwise (fun j i => Order.succ i.2 < j.1)
  le : ∀ i ∈ merged, i.1 ≤ bound

theorem merge_range_spec [NoMaxOrder α] {merged : List (α × α)} {bound : α} {range : α × α}
    (h : Merged merged bound) (hbound : bound ≤ range.1) (hrange : range.1 ≤ range.2) :
    Merged (merge_range merged range) range.1 ∧
      ∀ a, Covers (merge_range merged range) a ↔ Covers merged a ∨ Within range a := by
  cases merged with
  | nil =>
    refine ⟨⟨?_, List.pairwise_singleton _ _, ?_⟩, fun a => ?_⟩
    · intro i hi
      rwa [List.mem_singleton.mp hi]
    · intro i hi
      rw [List.mem_singleton.mp hi]
    · rw [merge_range, covers_cons]
      exact or_comm
  | cons last before =>
    obtain ⟨hnonempty, hgaps, hle⟩ := h
    rw [List.forall_mem_cons] at hnonempty hle
    rw [List.pairwise_cons] at hgaps
    have hle' : ∀ i ∈ before, i.1 ≤ range.1 := fun i hi => (hle.2 i hi).trans hbound
    have hlast : last.1 ≤ range.1 := hle.1.trans hbound
    rw [merge_range]
    -- there is a gap, or the range touches the last interval
    by_cases hgap : Order.succ last.2 < range.1
    · rw [if_pos hgap]
      refine ⟨⟨?_, ?_, ?_⟩, fun a => ?_⟩
      · exact List.forall_mem_cons.mpr ⟨hrange, List.forall_mem_cons.mpr hnonempty⟩
      · rw [List.pairwise_cons, List.forall_mem_cons, List.pairwise_cons]
        refine ⟨⟨hgap, fun i hi => ?_⟩, hgaps⟩
        exact (hgaps.1 i hi).trans_le hlast
      · exact List.forall_mem_cons.mpr ⟨le_rfl, List.forall_mem_cons.mpr ⟨hlast, hle'⟩⟩
      · rw [covers_cons]
        exact or_comm
    · rw [if_neg hgap]
      -- it reaches beyond the last interval, or it is part of it
      by_cases hlonger : last.2 < range.2
      · rw [if_pos hlonger]
        refine ⟨⟨?_, ?_, ?_⟩, fun a => ?_⟩
        · exact List.forall_mem_cons.mpr ⟨hlast.trans hrange, hnonempty.2⟩
        · exact List.pairwise_cons.mpr hgaps
        · exact List.forall_mem_cons.mpr ⟨hlast, hle'⟩
        · rw [covers_cons, covers_cons]
          constructor
          · rintro (⟨hlo, hhi⟩ | hbefore)
            · -- a value above the last interval is in the new one, which touches it
              rcases le_or_gt a last.2 with hin | hout
              · exact Or.inl (Or.inl ⟨hlo, hin⟩)
              · exact Or.inr ⟨(not_lt.mp hgap).trans (Order.succ_le_of_lt hout), hhi⟩
            · exact Or.inl (Or.inr hbefore)
          · rintro ((⟨hlo, hhi⟩ | hbefore) | ⟨hlo, hhi⟩)
            · exact Or.inl ⟨hlo, hhi.trans hlonger.le⟩
            · exact Or.inr hbefore
            · exact Or.inl ⟨hlast.trans hlo, hhi⟩
      · rw [if_neg hlonger]
        refine ⟨⟨?_, ?_, ?_⟩, fun a => ?_⟩
        · exact List.forall_mem_cons.mpr hnonempty
        · exact List.pairwise_cons.mpr hgaps
        · exact List.forall_mem_cons.mpr ⟨hlast, hle'⟩
        · rw [covers_cons]
          constructor
          · exact Or.inl
          · rintro (hbefore | ⟨hlo, hhi⟩)
            · exact hbefore
            · exact Or.inl ⟨hlast.trans hlo, hhi.trans (not_lt.mp hlonger)⟩

theorem foldl_merge_range [NoMaxOrder α] {ranges : List (α × α)} : ∀ {merged : List (α × α)} {bound : α},
    Merged merged bound → (∀ r ∈ ranges, bound ≤ r.1) → (∀ r ∈ ranges, r.1 ≤ r.2) →
      ranges.Pairwise (fun r s => r.1 ≤ s.1) →
        (∃ bound', Merged (ranges.foldl merge_range merged) bound') ∧
          ∀ a, Covers (ranges.foldl merge_range merged) a ↔ Covers merged a ∨ Covers ranges a := by
  induction ranges with
  | nil =>
    intro merged bound h _ _ _
    exact ⟨⟨bound, h⟩, fun a => by simp [covers_nil]⟩
  | cons range ranges ih =>
    intro merged bound h hbound hranges hsorted
    rw [List.forall_mem_cons] at hbound hranges
    rw [List.pairwise_cons] at hsorted
    obtain ⟨hmerged, hcovers⟩ := merge_range_spec h hbound.1 hranges.1
    obtain ⟨hexists, hall⟩ := ih hmerged hsorted.1 hranges.2 hsorted.2
    refine ⟨hexists, fun a => ?_⟩
    rw [List.foldl_cons, hall a, hcovers a, covers_cons, or_assoc]

/-- Sorted intervals that are merged have gaps and cover what they covered. -/
theorem merge_covers [NoMaxOrder α] {ranges : List (α × α)} (hranges : ∀ r ∈ ranges, r.1 ≤ r.2)
    (hsorted : ranges.Pairwise (fun r s => r.1 ≤ s.1)) :
    Separated (merge ranges) ∧ ∀ a, Covers (merge ranges) a ↔ Covers ranges a := by
  cases ranges with
  | nil => exact ⟨⟨by simp [merge], by simp [merge]⟩, fun a => Iff.rfl⟩
  | cons range rest =>
    have hstart : Merged ([] : List (α × α)) range.1 :=
      ⟨by simp, List.Pairwise.nil, by simp⟩
    have hbound : ∀ r ∈ range :: rest, range.1 ≤ r.1 :=
      List.forall_mem_cons.mpr ⟨le_rfl, (List.pairwise_cons.mp hsorted).1⟩
    obtain ⟨⟨bound, hmerged⟩, hcovers⟩ := foldl_merge_range hstart hbound hranges hsorted
    refine ⟨⟨?_, ?_⟩, fun a => ?_⟩
    · intro i hi
      exact hmerged.nonempty i (List.mem_reverse.mp hi)
    · exact List.pairwise_reverse.mpr hmerged.gaps
    · rw [merge, Covers.of_perm (List.reverse_perm _), hcovers a]
      exact or_iff_right (covers_nil a)

end Gaps

end F2bguard.Intervals
