import Mathlib

/-!
# Rounding rationals to integers

`halfAway` rounds to the nearest integer, a tie away from zero.

* `halfAway_div`: it is what `(2 n + d) / (2 d)` computes on the magnitudes.
* `abs_sub_halfAway_lt`: it moves a rational by less than one.
-/

namespace Rounding

/-- The nearest integer; of two that are equally near, the one further from zero. -/
def halfAway (x : ℚ) : ℤ := if x < 0 then -round (-x) else round x

theorem abs_sub_halfAway (x : ℚ) : |x - halfAway x| ≤ 1 / 2 := by
  unfold halfAway
  split
  case isTrue =>
    have h := abs_sub_round (-x)
    rw [Int.cast_neg, ← abs_neg]
    rwa [show -(x - -(round (-x) : ℚ)) = -x - round (-x) by ring]
  case isFalse => exact abs_sub_round x

theorem abs_sub_halfAway_lt (x : ℚ) : |(halfAway x : ℚ) - x| < 1 := by
  rw [abs_sub_comm]
  linarith [abs_sub_halfAway x]

theorem round_div (n : ℕ) {d : ℕ} (hd : 0 < d) : round ((n : ℚ) / d) = ((n * 2 + d) / (d * 2) : ℕ) := by
  have hhalf : (n : ℚ) / d + 1 / 2 = ((n * 2 + d : ℕ) : ℤ) / ((d * 2 : ℕ) : ℚ) := by
    push_cast
    field_simp
  rw [round_eq, hhalf, Rat.floor_intCast_div_natCast, Int.natCast_div]

theorem halfAway_div (n : ℤ) {d : ℕ} (hd : 0 < d) :
    halfAway (n / d) =
      if n < 0 then -(((n.natAbs * 2 + d) / (d * 2) : ℕ) : ℤ) else ((n.natAbs * 2 + d) / (d * 2) : ℕ) := by
  have hpos : (0 : ℚ) < d := by exact_mod_cast hd
  unfold halfAway
  by_cases hn : n < 0
  · have hneg : (n : ℚ) / d < 0 := div_neg_of_neg_of_pos (by exact_mod_cast hn) hpos
    have habs : -((n : ℚ) / d) = (n.natAbs : ℚ) / d := by
      rw [← neg_div, show (n.natAbs : ℚ) = ((n.natAbs : ℤ) : ℚ) by simp, show (n.natAbs : ℤ) = -n by omega,
        Int.cast_neg]
    rw [if_pos hneg, if_pos hn, habs, round_div _ hd]
  · have hneg : ¬ (n : ℚ) / d < 0 := not_lt.2 (div_nonneg (by exact_mod_cast not_lt.1 hn) hpos.le)
    have habs : (n : ℚ) / d = (n.natAbs : ℚ) / d := by
      rw [show (n.natAbs : ℚ) = ((n.natAbs : ℤ) : ℚ) by simp, show (n.natAbs : ℤ) = n by omega]
    rw [if_neg hneg, if_neg hn, habs, round_div _ hd]

/-- An integer less than one away from a rational need not be its rounding, but one a whole unit away is neither the
floor nor the ceiling. -/
theorem ne_floor_ceil {x : ℚ} {n : ℤ} (h : 1 ≤ |(n : ℚ) - x|) : n ≠ ⌊x⌋ ∧ n ≠ ⌈x⌉ := by
  constructor
  · rintro rfl
    rw [abs_of_nonpos (by linarith [Int.floor_le x])] at h
    linarith [Int.lt_floor_add_one x]
  · rintro rfl
    rw [abs_of_nonneg (by linarith [Int.le_ceil x])] at h
    linarith [Int.ceil_lt_add_one x]

end Rounding
