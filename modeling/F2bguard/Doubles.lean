/-
Which instants a double still tells apart from the end of the range.

A timestamp is the double nearest to a count of microseconds divided by a million. Rounding moves
the bound a little: between `2 ^ 37` and `2 ^ 38` the doubles are `2 ^ -15` apart, so the first 15
microseconds after the last second of the year 9999 are rounded back to that second
(`to_double_le_iff`). At the epoch nothing is lost (`to_double_nonneg_iff`). A difference that is not
larger than what it is taken from is exact (`to_double_sub_eq`).
-/
import F2bguard.Datetime
import Mathlib.Algebra.Order.Field.Power
import Mathlib.Tactic.Linarith
import Mathlib.Tactic.NormNum
import Mathlib.Tactic.Positivity

set_option autoImplicit false

namespace F2bguard.Datetime

/-! ## Rounding to an integer

A number that is less than a half above an integer is rounded to it or to one below, and the same
the other way round. -/

theorem round_half_even_le {q : ℚ} {n : ℤ} (h : q < n + 1 / 2) : round_half_even q ≤ n := by
  have hfloor : ⌊q⌋ ≤ n := by
    have hlt : ⌊q⌋ < n + 1 := Int.floor_lt.mpr (by push_cast; linarith)
    omega
  -- the floor is raised only when the fraction is at least a half
  have hraise : ¬ q - ⌊q⌋ < 1 / 2 → ⌊q⌋ + 1 ≤ n := by
    intro hhalf
    have hlt : (⌊q⌋ : ℚ) < n := by linarith
    exact_mod_cast hlt
  unfold round_half_even
  split
  · exact hfloor
  · rename_i hhalf
    split
    · exact hraise hhalf
    · split
      · exact hfloor
      · exact hraise hhalf

theorem le_round_half_even {q : ℚ} {n : ℤ} (h : n - 1 / 2 < q) : n ≤ round_half_even q := by
  have hfloor : n ≤ ⌊q⌋ + 1 := by
    have hlt : ((n - 1 : ℤ) : ℚ) < q + 1 := by push_cast; linarith
    have hle : (n : ℚ) < (⌊q⌋ + 1 : ℤ) + 1 := by
      have := Int.lt_floor_add_one q
      push_cast
      linarith
    have hint : n < ⌊q⌋ + 1 + 1 := by exact_mod_cast hle
    omega
  -- the floor is kept only when the fraction is at most a half
  have hkeep : ¬ 1 / 2 < q - ⌊q⌋ → n ≤ ⌊q⌋ := by
    intro hhalf
    have hlt : (n : ℚ) < ⌊q⌋ + 1 := by linarith
    have hint : n < ⌊q⌋ + 1 := by exact_mod_cast hlt
    omega
  unfold round_half_even
  split
  · rename_i hhalf
    exact hkeep (by linarith)
  · split
    · exact hfloor
    · rename_i hhalf
      split
      · exact hkeep hhalf
      · exact hfloor

/-! ## The exponent

`binary_exponent` is determined by the two powers of two around the number. -/

theorem binary_exponent_spec {q : ℚ} (h : 0 < q) :
    (2 : ℚ) ^ binary_exponent q ≤ q ∧ q < (2 : ℚ) ^ (binary_exponent q + 1) := by
  have hnum : 0 < q.num.natAbs := Int.natAbs_pos.mpr (Rat.num_pos.mpr h).ne'
  have hq : q = (q.num.natAbs : ℚ) / q.den := by
    rw [Nat.cast_natAbs, abs_of_pos (Rat.num_pos.mpr h)]
    exact (Rat.num_div_den q).symm
  have hden : (0 : ℚ) < q.den := by exact_mod_cast q.den_pos
  generalize ha : q.num.natAbs.log2 = a
  generalize hb : q.den.log2 = b
  have hnum_ge : (2 : ℚ) ^ a ≤ q.num.natAbs := by
    exact_mod_cast ha ▸ Nat.log2_self_le hnum.ne'
  have hnum_lt : (q.num.natAbs : ℚ) < 2 ^ (a + 1) := by
    exact_mod_cast ha ▸ Nat.lt_log2_self
  have hden_ge : (2 : ℚ) ^ b ≤ q.den := by
    exact_mod_cast hb ▸ Nat.log2_self_le q.den_pos.ne'
  have hden_lt : (q.den : ℚ) < 2 ^ (b + 1) := by
    exact_mod_cast hb ▸ Nat.lt_log2_self
  -- the quotient of the bounds of numerator and denominator
  have hlower : (2 : ℚ) ^ ((a : ℤ) - b - 1) ≤ q := by
    rw [hq, le_div_iff₀ hden]
    calc (2 : ℚ) ^ ((a : ℤ) - b - 1) * q.den
        ≤ (2 : ℚ) ^ ((a : ℤ) - b - 1) * 2 ^ (b + 1) :=
          mul_le_mul_of_nonneg_left hden_lt.le (by positivity)
      _ = 2 ^ a := by
          rw [← zpow_natCast, ← zpow_natCast, ← zpow_add₀ (by norm_num)]
          congr 1
          push_cast
          ring
      _ ≤ q.num.natAbs := hnum_ge
  have hupper : q < (2 : ℚ) ^ ((a : ℤ) - b + 1) := by
    rw [hq, div_lt_iff₀ hden]
    calc (q.num.natAbs : ℚ) < 2 ^ (a + 1) := hnum_lt
      _ = (2 : ℚ) ^ ((a : ℤ) - b + 1) * 2 ^ b := by
          rw [← zpow_natCast, ← zpow_natCast, ← zpow_add₀ (by norm_num)]
          congr 1
          push_cast
          ring
      _ ≤ (2 : ℚ) ^ ((a : ℤ) - b + 1) * q.den :=
          mul_le_mul_of_nonneg_left hden_ge (by positivity)
  unfold binary_exponent
  rw [ha, hb]
  dsimp only
  -- one of two exponents is right, and the definition compares
  split
  · rename_i hlt
    exact ⟨hlower, by rwa [sub_add_cancel]⟩
  · rename_i hge
    exact ⟨not_lt.mp hge, hupper⟩

theorem two_zpow_le_iff {m n : ℤ} : (2 : ℚ) ^ m ≤ 2 ^ n ↔ m ≤ n :=
  zpow_le_zpow_iff_right₀ (by norm_num)

theorem two_zpow_lt_iff {m n : ℤ} : (2 : ℚ) ^ m < 2 ^ n ↔ m < n :=
  zpow_lt_zpow_iff_right₀ (by norm_num)

theorem two_zpow_pos (n : ℤ) : (0 : ℚ) < 2 ^ n := by positivity

/-- The distance between two doubles near `q`. -/
def ulp (q : ℚ) : ℚ := (2 : ℚ) ^ max (binary_exponent |q| - 52) (-1074)

theorem ulp_pos (q : ℚ) : 0 < ulp q := two_zpow_pos _

theorem to_double_eq {q : ℚ} (h : q ≠ 0) : to_double q = round_half_even (q / ulp q) * ulp q :=
  if_neg h

/-! ## Bounds

Where the doubles are as dense as the multiples of a microsecond, rounding cannot cross a bound
that is a double itself. At the end of the range they are not, and the bound has to be computed.
-/

theorem to_double_le {q : ℚ} (h : q ≠ 0) {n : ℤ} (hq : q < (n + 1 / 2) * ulp q) :
    to_double q ≤ n * ulp q := by
  rw [to_double_eq h]
  have hround : round_half_even (q / ulp q) ≤ n :=
    round_half_even_le ((div_lt_iff₀ (ulp_pos q)).mpr hq)
  exact mul_le_mul_of_nonneg_right (by exact_mod_cast hround) (ulp_pos q).le

theorem le_to_double {q : ℚ} (h : q ≠ 0) {n : ℤ} (hq : (n - 1 / 2) * ulp q < q) :
    n * ulp q ≤ to_double q := by
  rw [to_double_eq h]
  have hround : n ≤ round_half_even (q / ulp q) :=
    le_round_half_even ((lt_div_iff₀ (ulp_pos q)).mpr hq)
  exact mul_le_mul_of_nonneg_right (by exact_mod_cast hround) (ulp_pos q).le

/-- A microsecond before the epoch is not rounded to the epoch. -/
theorem to_double_nonneg_iff {q : ℚ} (h : q < 0 → 1 / 1000000 ≤ -q) : 0 ≤ to_double q ↔ 0 ≤ q := by
  rcases lt_trichotomy q 0 with hneg | rfl | hpos
  · have hne : q ≠ 0 := hneg.ne
    have habs : |q| = -q := abs_of_neg hneg
    obtain ⟨hle, hlt⟩ := binary_exponent_spec (abs_pos.mpr hne)
    rw [habs] at hle hlt
    have hexponent : -21 ≤ binary_exponent (-q) := by
      have hbig : (2 : ℚ) ^ (-20 : ℤ) < 2 ^ (binary_exponent (-q) + 1) := by
        have hsmall : (2 : ℚ) ^ (-20 : ℤ) ≤ 1 / 1000000 := by norm_num
        exact lt_of_le_of_lt (hsmall.trans (h hneg)) hlt
      have := two_zpow_lt_iff.mp hbig
      omega
    have hulp : ulp q ≤ -q := by
      refine le_trans ?_ hle
      rw [ulp, habs, two_zpow_le_iff]
      omega
    have hdouble : to_double q ≤ (-1 : ℤ) * ulp q := by
      refine to_double_le hne ?_
      have := ulp_pos q
      push_cast
      linarith
    have := ulp_pos q
    push_cast at hdouble
    constructor
    · intro hnonneg
      linarith
    · intro hnonneg
      linarith
  · simp [to_double]
  · have hdouble : (0 : ℤ) * ulp q ≤ to_double q := by
      refine le_to_double hpos.ne' ?_
      have := ulp_pos q
      push_cast
      linarith
    push_cast at hdouble
    rw [zero_mul] at hdouble
    exact ⟨fun _ => hpos.le, fun _ => hdouble⟩

/-- The doubles around `m`, which lies between `2 ^ 37` and `2 ^ 38`, are `2 ^ -15` apart. -/
theorem to_double_le_iff {m : ℤ} (hm : 2 ^ 37 ≤ m) (hm' : m < 2 ^ 38) {q : ℚ} (h : 0 < q)
    (hhalf : q ≠ m + 1 / 65536) : to_double q ≤ m ↔ q < m + 1 / 65536 := by
  have hmq : (2 : ℚ) ^ 37 ≤ m := by exact_mod_cast hm
  have hmq' : (m : ℚ) < 2 ^ 38 := by exact_mod_cast hm'
  have habs : |q| = q := abs_of_pos h
  obtain ⟨hle, hlt⟩ := binary_exponent_spec h
  rcases lt_trichotomy (binary_exponent q) 37 with hexp | hexp | hexp
  · -- all doubles of a smaller exponent are at most `2 ^ 37`
    have hq : q < 2 ^ 37 := by
      have := two_zpow_le_iff.mpr (show binary_exponent q + 1 ≤ 37 by omega)
      exact lt_of_lt_of_le hlt this
    refine ⟨fun _ => by linarith, fun _ => le_trans ?_ hmq⟩
    have hcount : ((2 ^ (37 - max (binary_exponent q - 52) (-1074)).toNat : ℤ) : ℚ) * ulp q = 2 ^ 37 := by
      rw [ulp, habs]
      push_cast
      rw [← zpow_natCast, ← zpow_add₀ (by norm_num), ← zpow_natCast]
      congr 1
      omega
    rw [← hcount]
    refine to_double_le h.ne' ?_
    rw [add_mul, hcount]
    have := ulp_pos q
    linarith
  · -- the doubles around `m`
    have hulp : ulp q = 1 / 32768 := by
      rw [ulp, habs, hexp]
      norm_num
    constructor
    · intro hdouble
      by_contra hge
      have hq : (((m * 32768 + 1 : ℤ) : ℚ) - 1 / 2) * ulp q < q := by
        have := lt_of_le_of_ne (not_lt.mp hge) hhalf.symm
        rw [hulp]
        push_cast
        linarith
      have := le_to_double h.ne' hq
      rw [hulp] at this
      push_cast at this
      linarith
    · intro hq
      have : to_double q ≤ ((m * 32768 : ℤ) : ℚ) * ulp q := by
        refine to_double_le h.ne' ?_
        rw [hulp]
        push_cast
        linarith
      rw [hulp] at this
      push_cast at this
      linarith
  · -- all doubles of a greater exponent are at least `2 ^ 38`
    have hq : (2 : ℚ) ^ 38 ≤ q := by
      have := two_zpow_le_iff.mpr (show (38 : ℤ) ≤ binary_exponent q by omega)
      exact le_trans this hle
    have hcount : ((2 ^ 52 : ℤ) : ℚ) * ulp q = 2 ^ binary_exponent q := by
      rw [ulp, habs, max_eq_left (by omega), show ((2 ^ 52 : ℤ) : ℚ) = 2 ^ (52 : ℤ) by norm_num,
        ← zpow_add₀ (by norm_num)]
      congr 1
      ring
    have hdouble : (2 : ℚ) ^ 38 ≤ to_double q := by
      have hexponent : (2 : ℚ) ^ 38 ≤ 2 ^ binary_exponent q :=
        two_zpow_le_iff.mpr (show (38 : ℤ) ≤ binary_exponent q by omega)
      refine hexponent.trans ?_
      rw [← hcount]
      refine le_to_double h.ne' ?_
      rw [sub_mul, hcount]
      have := ulp_pos q
      linarith
    have hint : (m : ℚ) + 1 ≤ 2 ^ 38 := by exact_mod_cast hm'
    constructor
    · intro hle
      linarith
    · intro hlt
      linarith

/-! ## Timestamps

The two tests of the receiver, not before the epoch and not after the year 9999, as tests on the
microseconds that were written. -/

/-- The last microsecond whose timestamp is at most 253402300799, the last second of the year
9999. -/
def last_microsecond : ℤ := 253402300799000015

theorem timestamp_in_range_iff (local_us utcoffset : ℤ) :
    (0 ≤ timestamp local_us utcoffset ∧ timestamp local_us utcoffset ≤ 253402300799) ↔
      0 ≤ local_us - utcoffset ∧ local_us - utcoffset ≤ last_microsecond := by
  unfold timestamp last_microsecond
  generalize local_us - utcoffset = us
  -- the lower bound is exact
  have hlower : 0 ≤ to_double ((us : ℚ) / 1000000) ↔ 0 ≤ us := by
    rw [to_double_nonneg_iff]
    · rw [le_div_iff₀ (by norm_num), zero_mul]
      exact Int.cast_nonneg_iff
    · intro hneg
      have hus : us ≤ -1 := by
        have : (us : ℚ) < 0 := by linarith
        have : us < 0 := by exact_mod_cast this
        omega
      have : (us : ℚ) ≤ -1 := by exact_mod_cast hus
      linarith
  rw [hlower]
  refine and_congr_right fun hus => ?_
  -- the upper bound is met up to half a unit, which is no whole microsecond
  rcases eq_or_lt_of_le hus with rfl | hpos
  · simp [to_double]
  · have hposq : (0 : ℚ) < us := by exact_mod_cast hpos
    have hiff := to_double_le_iff (m := 253402300799) (by norm_num) (by norm_num)
      (show (0 : ℚ) < (us : ℚ) / 1000000 by positivity)
      (by
        intro heq
        -- half of `2 ^ -15` is no whole number of microseconds
        have hcount : (us : ℚ) * 65536 = 253402300799 * 65536 * 1000000 + 1000000 := by
          push_cast at heq
          linarith
        have hcount : us * 65536 = 253402300799 * 65536 * 1000000 + 1000000 := by
          exact_mod_cast hcount
        omega)
    push_cast at hiff
    rw [hiff]
    constructor
    · intro hlt
      have hcount : (us : ℚ) * 65536 < 253402300799 * 65536 * 1000000 + 1000000 := by linarith
      have hcount : us * 65536 < 253402300799 * 65536 * 1000000 + 1000000 := by
        exact_mod_cast hcount
      omega
    · intro hle
      have : (us : ℚ) ≤ 253402300799000015 := by exact_mod_cast hle
      linarith

/-! ## Differences

The rate limiter subtracts a window from a reading of the clock. Where the difference is a double
again, the comparison that follows is exact. -/

theorem binary_exponent_mono {p q : ℚ} (hp : 0 < p) (hle : p ≤ q) :
    binary_exponent p ≤ binary_exponent q := by
  have hlower := (binary_exponent_spec hp).1
  have hupper := (binary_exponent_spec (lt_of_lt_of_le hp hle)).2
  have := two_zpow_lt_iff.mp (lt_of_le_of_lt (hlower.trans hle) hupper)
  omega

/-- A multiple of the distance between the doubles around it is a double. -/
theorem to_double_of_mul_ulp {q : ℚ} {n : ℤ} (h : q = n * ulp q) : to_double q = q := by
  by_cases hzero : q = 0
  · rw [hzero]
    exact if_pos rfl
  · have hpos := ulp_pos q
    refine le_antisymm ?_ ?_
    · have hle := to_double_le hzero (n := n) (by linarith)
      rwa [← h] at hle
    · have hle := le_to_double hzero (n := n) (by linarith)
      rwa [← h] at hle

/-- The difference of a double and a number is a double when it is not larger than the double and
the number is a multiple of the distance there. -/
theorem to_double_sub_eq {q c : ℚ} (hq : to_double q = q) (hpos : 0 < q) (hle : |q - c| ≤ q)
    (hc : ∃ n : ℤ, c = n * ulp (q - c)) : to_double (q - c) = q - c := by
  by_cases hzero : q - c = 0
  · rw [hzero]
    exact if_pos rfl
  · obtain ⟨n, hn⟩ := hc
    have hexponent := binary_exponent_mono (abs_pos.mpr hzero) hle
    have hround : q = round_half_even (q / ulp q) * ulp q := by
      rw [← to_double_eq hpos.ne', hq]
    obtain ⟨j, hj⟩ : ∃ j : ℕ, ulp q = 2 ^ j * ulp (q - c) := by
      refine ⟨(max (binary_exponent |q| - 52) (-1074) - max (binary_exponent |q - c| - 52) (-1074)).toNat, ?_⟩
      rw [ulp, ulp, ← zpow_natCast, ← zpow_add₀ (by norm_num)]
      congr 1
      rw [abs_of_pos hpos]
      omega
    have hmul : q - c = ((round_half_even (q / ulp q) * 2 ^ j - n : ℤ) : ℚ) * ulp (q - c) := by
      push_cast
      rw [sub_mul, mul_assoc, ← hj, ← hround, ← hn]
    exact to_double_of_mul_ulp hmul

end F2bguard.Datetime
