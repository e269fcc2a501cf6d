import Recouple.Lib.Double

/-!
# How far rounding to a double moves a number

* `roundDouble_near`: by half the spacing of doubles there, at most.
* `roundDouble_int`: an integer below `2 ^ 53` not at all.
* `floor_roundDouble_div`: the quotient of two such integers never reaches the next integer, either way, so its floor is
  the floor of the exact quotient.
-/

namespace Js

/-- The spacing of doubles at a rational, no smaller than that of the subnormal ones. -/
def spacing (x : ℚ) : ℚ := 2 ^ max (Int.log 2 |x| - 52) (-1074)

theorem spacing_pos (x : ℚ) : 0 < spacing x := zpow_pos (by norm_num) _

theorem roundHalfEven_near (q : ℚ) : |(roundHalfEven q : ℚ) - q| ≤ 1 / 2 := by
  have hfloor := Int.floor_le q
  have hlt := Int.lt_floor_add_one q
  unfold roundHalfEven
  dsimp only
  split
  case isTrue h =>
    have hhalf : q - ⌊q⌋ ≤ 1 / 2 := by
      rcases h with h | h
      · exact h.le
      · exact h.1.le
    rw [abs_of_nonpos (by linarith)]
    linarith
  case isFalse h =>
    have hhalf : 1 / 2 ≤ q - ⌊q⌋ := not_lt.1 fun hlt => h (.inl hlt)
    push_cast
    rw [abs_of_nonneg (by linarith)]
    linarith

theorem roundHalfEven_int (n : ℤ) : roundHalfEven (n : ℚ) = n := by
  unfold roundHalfEven
  simp

/-- The magnitude `roundDouble` gives a number. -/
def roundedAbs (x : ℚ) : ℚ := roundHalfEven (|x| / spacing x) * spacing x

theorem roundDouble_eq {x : ℚ} (hx : x ≠ 0) : roundDouble x =
    if 2 ^ 1024 ≤ roundedAbs x then none else some (if x < 0 then -roundedAbs x else roundedAbs x) := by
  unfold roundDouble
  rw [if_neg hx]
  rfl

theorem roundedAbs_near (x : ℚ) : |(|x|) - roundedAbs x| ≤ spacing x / 2 := by
  have hpos := spacing_pos x
  have hscale : |x| - roundedAbs x = -((roundHalfEven (|x| / spacing x) - |x| / spacing x) * spacing x) := by
    rw [sub_mul, div_mul_cancel₀ _ hpos.ne', neg_sub]
    rfl
  rw [hscale, abs_neg, abs_mul, abs_of_pos hpos]
  linarith [mul_le_mul_of_nonneg_right (roundHalfEven_near (|x| / spacing x)) hpos.le]

theorem roundDouble_near {x y : ℚ} (h : roundDouble x = some y) : |x - y| ≤ spacing x / 2 := by
  by_cases hx : x = 0
  · subst hx
    obtain rfl : 0 = y := by simpa [roundDouble] using h
    rw [sub_self, abs_zero]
    exact (half_pos (spacing_pos 0)).le
  have hnear := roundedAbs_near x
  rw [roundDouble_eq hx] at h
  split at h
  · cases h
  · obtain rfl := Option.some.inj h
    by_cases hneg : x < 0
    · rw [if_pos hneg, ← abs_neg, neg_sub, sub_eq_add_neg, neg_add_eq_sub]
      rwa [abs_of_neg hneg] at hnear
    · rw [if_neg hneg]
      rwa [abs_of_nonneg (not_lt.1 hneg)] at hnear

/-- Doubles are as dense at a normal number as 53 bits make them. -/
theorem spacing_le {x : ℚ} (hx : 2 ^ (-1022 : ℤ) ≤ |x|) : spacing x ≤ |x| / 2 ^ 52 := by
  have hpos : 0 < |x| := lt_of_lt_of_le (by positivity) hx
  have hlog : (-1022 : ℤ) ≤ Int.log 2 |x| := (Int.zpow_le_iff_le_log (by norm_num) hpos).1 hx
  unfold spacing
  rw [max_eq_left (by omega), zpow_sub₀ (by norm_num)]
  exact div_le_div_of_nonneg_right (Int.zpow_log_le_self (by norm_num) hpos) (by positivity)

/-- An integer with at most 53 bits is a double. -/
theorem roundDouble_int {n : ℤ} (h : |n| < 2 ^ 53) : roundDouble (n : ℚ) = some (n : ℚ) := by
  by_cases hn : n = 0
  · subst hn
    rfl
  have habs : (0 : ℚ) < |(n : ℚ)| := abs_pos.2 (Int.cast_ne_zero.2 hn)
  have hcast : |(n : ℚ)| = (n.natAbs : ℚ) := by rw [← Int.cast_abs, Int.abs_eq_natAbs, Int.cast_natCast]
  have hlt : |(n : ℚ)| < 2 ^ 53 := by rw [← Int.cast_abs]; exact_mod_cast h
  have hlog : Int.log 2 |(n : ℚ)| < 53 := (Int.lt_zpow_iff_log_lt (by norm_num) habs).1 (by exact_mod_cast hlt)
  have hlog' : 0 ≤ Int.log 2 |(n : ℚ)| := by
    refine (Int.zpow_le_iff_le_log (by norm_num) habs).1 ?_
    rw [zpow_zero, hcast]
    exact_mod_cast Int.natAbs_pos.2 hn
  obtain ⟨k, hk⟩ : ∃ k : ℕ, spacing n = (2 ^ k)⁻¹ := by
    refine ⟨(52 - Int.log 2 |(n : ℚ)|).toNat, ?_⟩
    unfold spacing
    rw [max_eq_left (by omega), ← zpow_natCast, ← zpow_neg]
    congr 1
    omega
  have hrounded : roundedAbs n = |(n : ℚ)| := by
    have hinteger : |(n : ℚ)| / spacing n = ((|n| * 2 ^ k : ℤ) : ℚ) := by
      rw [hk, div_inv_eq_mul]
      push_cast
      rfl
    rw [roundedAbs, hinteger, roundHalfEven_int, ← hinteger, div_mul_cancel₀ _ (spacing_pos _).ne']
  have hfinite : |(n : ℚ)| < 2 ^ 1024 := hlt.trans (pow_lt_pow_right₀ (by norm_num) (by norm_num))
  rw [roundDouble_eq (Int.cast_ne_zero.2 hn), hrounded, if_neg (not_le.2 hfinite)]
  congr 1
  split
  case isTrue hneg => rw [abs_of_neg hneg, neg_neg]
  case isFalse hneg => rw [abs_of_nonneg (not_lt.1 hneg)]

/-- Far below the largest double, rounding is no overflow. -/
theorem roundDouble_returns {x : ℚ} (hx : 2 ^ (-1022 : ℤ) ≤ |x|) (h : |x| ≤ 2 ^ 1000) : ∃ y, roundDouble x = some y := by
  have hne : x ≠ 0 := by
    rintro rfl
    rw [abs_zero] at hx
    exact absurd hx (not_le.2 (by positivity))
  have hnear := (abs_le.1 (roundedAbs_near x)).1
  have hspacing := spacing_le hx
  have hbound : roundedAbs x < 2 ^ 1024 := by
    have hsmall : |x| / 2 ^ 52 ≤ |x| := div_le_self (abs_nonneg x) (by norm_num)
    calc roundedAbs x ≤ |x| + |x| := by linarith [abs_nonneg x]
      _ ≤ 2 ^ 1000 + 2 ^ 1000 := add_le_add h h
      _ = 2 ^ 1001 := by rw [← mul_two, ← pow_succ]
      _ < 2 ^ 1024 := pow_lt_pow_right₀ (by norm_num) (by norm_num)
  rw [roundDouble_eq hne, if_neg (not_le.2 hbound)]
  exact ⟨_, rfl⟩

/-- The quotient of two integers below `2 ^ 53` is a double away from every integer that it is not. -/
theorem floor_roundDouble_div {n : ℤ} {d : ℕ} (hn : |n| < 2 ^ 53) (hd : 0 < d) (hd' : d ≤ 2 ^ 53) :
    ∃ y, roundDouble ((n : ℚ) / d) = some y ∧ ⌊y⌋ = n / d := by
  have hpos : (0 : ℚ) < d := by exact_mod_cast hd
  by_cases hdvd : (d : ℤ) ∣ n
  · obtain ⟨k, rfl⟩ := hdvd
    have hquotient : ((d * k : ℤ) : ℚ) / d = k := by
      push_cast
      exact mul_div_cancel_left₀ _ hpos.ne'
    have hk : |k| < 2 ^ 53 := by
      refine lt_of_le_of_lt ?_ hn
      rw [abs_mul, Nat.abs_cast]
      exact le_mul_of_one_le_left (abs_nonneg k) (by omega)
    refine ⟨k, by rw [hquotient, roundDouble_int hk], ?_⟩
    rw [Int.floor_intCast, Int.mul_ediv_cancel_left _ (by omega)]
  · have hne : n ≠ 0 := fun h => hdvd (h ▸ dvd_zero _)
    have habs : |(n : ℚ) / d| = (|n| : ℤ) / d := by rw [abs_div, Nat.abs_cast, Int.cast_abs]
    have hone : (1 : ℚ) ≤ (|n| : ℤ) := by exact_mod_cast Int.one_le_abs hne
    have hd'' : (d : ℚ) ≤ 2 ^ 53 := by exact_mod_cast hd'
    have hlow : 2 ^ (-1022 : ℤ) ≤ |(n : ℚ) / d| := by
      rw [habs, le_div_iff₀ hpos]
      calc (2 : ℚ) ^ (-1022 : ℤ) * d ≤ 2 ^ (-1022 : ℤ) * 2 ^ 53 := mul_le_mul_of_nonneg_left hd'' (by positivity)
        _ = 2 ^ (-969 : ℤ) := by rw [← zpow_natCast, ← zpow_add₀ (by norm_num)]; rfl
        _ ≤ 1 := zpow_le_one_of_nonpos₀ (by norm_num) (by norm_num)
        _ ≤ (|n| : ℤ) := hone
    have hupper : ((|n| : ℤ) : ℚ) < 2 ^ 53 := by exact_mod_cast hn
    have hhigh : |(n : ℚ) / d| ≤ 2 ^ 1000 := by
      rw [habs, div_le_iff₀ hpos]
      have hd1 : (1 : ℚ) ≤ d := by exact_mod_cast hd
      calc ((|n| : ℤ) : ℚ) ≤ 2 ^ 53 := hupper.le
        _ ≤ 2 ^ 1000 := pow_le_pow_right₀ (by norm_num) (by norm_num)
        _ ≤ 2 ^ 1000 * d := le_mul_of_one_le_right (by positivity) hd1
    obtain ⟨y, hy⟩ := roundDouble_returns hlow hhigh
    -- half a spacing there is less than the distance `1 / d` to the nearest integers
    have hnear : |(n : ℚ) / d - y| < 1 / d := by
      have hspacing := (roundDouble_near hy).trans (div_le_div_of_nonneg_right (spacing_le hlow) (by norm_num))
      refine lt_of_le_of_lt hspacing ?_
      rw [habs, div_div, div_div, div_lt_div_iff₀ (by positivity) hpos]
      nlinarith [mul_lt_mul_of_pos_right hupper hpos]
    have hfloor : ((n / d : ℤ) : ℚ) + 1 / d ≤ n / d ∧ (n : ℚ) / d ≤ ((n / d : ℤ) : ℚ) + 1 - 1 / d := by
      have hmod := Int.emod_add_mul_ediv n d
      have hmodpos : 1 ≤ n % d := by
        have := Int.emod_nonneg n (show (d : ℤ) ≠ 0 by omega)
        have : n % d ≠ 0 := fun h => hdvd (Int.dvd_of_emod_eq_zero h)
        omega
      have hmodlt : n % d + 1 ≤ d := Int.emod_lt_of_pos n (by omega)
      have hn' : (n : ℚ) = (n % d : ℤ) + d * (n / d : ℤ) := by exact_mod_cast hmod.symm
      have h1 : (1 : ℚ) ≤ (n % d : ℤ) := by exact_mod_cast hmodpos
      have h2 : ((n % d : ℤ) : ℚ) + 1 ≤ d := by exact_mod_cast hmodlt
      have hsplit : (n : ℚ) / d = (n % d : ℤ) / d + (n / d : ℤ) := by
        rw [hn', add_div, mul_div_cancel_left₀ _ hpos.ne']
      have h3 : (1 : ℚ) / d ≤ (n % d : ℤ) / d := div_le_div_of_nonneg_right h1 hpos.le
      have h4 : ((n % d : ℤ) : ℚ) / d + 1 / d ≤ 1 := by rw [← add_div, div_le_one hpos]; exact h2
      constructor <;> linarith
    refine ⟨y, hy, Int.floor_eq_iff.2 ?_⟩
    obtain ⟨hl, hr⟩ := abs_lt.1 hnear
    constructor <;> linarith [hfloor.1, hfloor.2]

end Js
