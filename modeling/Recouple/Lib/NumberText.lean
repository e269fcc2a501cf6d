import Recouple.Lib.Number

/-!
# Writing a double and reading it back

`String(n)` writes an integral double below `10 ^ 21` as digits that `Number` reads as the same double
(`numberOf_showNumber`), and a larger one with an exponent (`exponent_of_showNumber`).
-/

namespace Js

/-! ## Doubles -/

/-- A multiple of the spacing at its size is a double. -/
theorem toDouble_of_dvd {n : Nat} (h : 2 ^ (Nat.log2 n - 52) ∣ n) : toDouble n = n := by
  unfold toDouble
  split
  · rfl
  · dsimp only
    have hpos : 0 < 2 ^ (Nat.log2 n - 52) := Nat.two_pow_pos _
    rw [Nat.mod_eq_zero_of_dvd h, Nat.mul_zero, if_pos (.inl hpos), Nat.div_mul_cancel h]

/-- Rounding twice is rounding once. -/
theorem toDouble_toDouble (n : Nat) : toDouble (toDouble n) = toDouble n := by
  by_cases hn : n < 2 ^ 53
  · rw [toDouble_of_lt hn, toDouble_of_lt hn]
  · have hne : n ≠ 0 := by omega
    have hlog : 53 ≤ Nat.log2 n := (Nat.le_log2 hne).2 (by omega)
    have hlow : 2 ^ 52 * 2 ^ (Nat.log2 n - 52) ≤ n := by
      rw [← Nat.pow_add, show 52 + (Nat.log2 n - 52) = Nat.log2 n by omega]
      exact Nat.log2_self_le hne
    have hhigh : n < 2 ^ 53 * 2 ^ (Nat.log2 n - 52) := by
      rw [← Nat.pow_add, show 53 + (Nat.log2 n - 52) = Nat.log2 n + 1 by omega]
      exact Nat.lt_log2_self
    have hround : toDouble n = n / 2 ^ (Nat.log2 n - 52) * 2 ^ (Nat.log2 n - 52) ∨
        toDouble n = (n / 2 ^ (Nat.log2 n - 52) + 1) * 2 ^ (Nat.log2 n - 52) := by
      unfold toDouble
      rw [if_neg hn]
      dsimp only
      split
      · exact .inl rfl
      · exact .inr rfl
    have hpos : 0 < 2 ^ (Nat.log2 n - 52) := Nat.two_pow_pos _
    have hdlow : 2 ^ 52 ≤ n / 2 ^ (Nat.log2 n - 52) := (Nat.le_div_iff_mul_le hpos).2 hlow
    have hdhigh : n / 2 ^ (Nat.log2 n - 52) < 2 ^ 53 := (Nat.div_lt_iff_lt_mul hpos).2 hhigh
    -- the rounded quotient `q` has 53 bits, or is the power of two after them
    obtain ⟨q, hq, hqlow, hqhigh⟩ : ∃ q, toDouble n = q * 2 ^ (Nat.log2 n - 52) ∧ 2 ^ 52 ≤ q ∧ q ≤ 2 ^ 53 := by
      rcases hround with h | h
      · exact ⟨_, h, hdlow, hdhigh.le⟩
      · exact ⟨_, h, by omega, by omega⟩
    rw [hq]
    apply toDouble_of_dvd
    generalize Nat.log2 n - 52 = e
    have hq0 : q * 2 ^ e ≠ 0 := Nat.mul_ne_zero (by omega) (Nat.two_pow_pos e).ne'
    rcases Nat.lt_or_eq_of_le hqhigh with hlt | rfl
    · have hlog' : Nat.log2 (q * 2 ^ e) - 52 = e := by
        have h1 : 52 + e ≤ Nat.log2 (q * 2 ^ e) := (Nat.le_log2 hq0).2 (by
          rw [Nat.pow_add]
          exact Nat.mul_le_mul_right _ hqlow)
        have h2 : Nat.log2 (q * 2 ^ e) < 53 + e := (Nat.log2_lt hq0).2 (by
          rw [Nat.pow_add]
          exact Nat.mul_lt_mul_of_pos_right hlt (Nat.two_pow_pos e))
        omega
      rw [hlog']
      exact Nat.dvd_mul_left _ _
    · rw [← Nat.pow_add, Nat.log2_two_pow]
      exact Nat.pow_dvd_pow 2 (by omega)

theorem numberOf_eq_some {m n : Nat} (h : numberOf m = some n) : toDouble n = n := by
  unfold numberOf at h
  split_ifs at h with h1 h2
  · cases h
    exact toDouble_of_lt h1
  · cases h
    exact toDouble_toDouble m

/-- A number that rounds to a finite double is read as it. -/
theorem numberOf_of_toDouble {m n : Nat} (h : toDouble m = n) (hn : n < 2 ^ 1024) : numberOf m = some n := by
  unfold numberOf
  split_ifs with h1 h2
  · rw [toDouble_of_lt h1] at h
    rw [h]
    rfl
  · rw [h]
    rfl
  · rw [h] at h2
    exact absurd hn h2

/-! ## The shortest digits -/

/-- The digits found round to the double, and are those of its front or one more. -/
theorem shortest_spec {n : Nat} (hn : toDouble n = n) : ∃ s zeros, shortest n = (s, zeros) ∧
    toDouble (s * 10 ^ zeros) = n ∧ zeros < (decimal n).length ∧ (s = n / 10 ^ zeros ∨ s = n / 10 ^ zeros + 1) := by
  have hlen : 0 < (decimal n).length := List.length_pos_iff.2 (decimal_ne_nil n)
  unfold shortest
  dsimp only
  cases hf : (List.range (decimal n).length).findSome? fun k =>
      ((if 2 * (n % 10 ^ ((decimal n).length - (k + 1))) ≤ 10 ^ ((decimal n).length - (k + 1)) then
          [n / 10 ^ ((decimal n).length - (k + 1)), n / 10 ^ ((decimal n).length - (k + 1)) + 1]
        else [n / 10 ^ ((decimal n).length - (k + 1)) + 1, n / 10 ^ ((decimal n).length - (k + 1))]).find? fun s =>
          toDouble (s * 10 ^ ((decimal n).length - (k + 1))) = n).map fun s => (s, (decimal n).length - (k + 1)) with
  | none =>
    refine ⟨n, 0, rfl, ?_, hlen, .inl ?_⟩
    · rw [Nat.pow_zero, Nat.mul_one, hn]
    · rw [Nat.pow_zero, Nat.div_one]
  | some found =>
    obtain ⟨k, hk, hfound⟩ := List.exists_of_findSome?_eq_some hf
    obtain ⟨s, hs, rfl⟩ := Option.map_eq_some_iff.1 hfound
    refine ⟨s, _, rfl, by simpa using List.find?_some hs, by omega, ?_⟩
    have hmem := List.mem_of_find?_eq_some hs
    split at hmem <;> simpa [or_comm] using hmem

theorem length_decimal_le {n k : Nat} (hk : 0 < k) : (decimal n).length ≤ k ↔ n < 10 ^ k :=
  Nat.length_toDigits_le_iff (by omega) hk

theorem showNumber_eq {n s zeros : Nat} (h : shortest n = (s, zeros)) : showNumber (some n) =
    if (decimal s).length + zeros ≤ 21 then decimal s ++ List.replicate zeros '0'
    else
      (match decimal s with
        | [] => []
        | [d] => [d]
        | d :: ds => d :: '.' :: ds) ++ 'e' :: '+' :: decimal ((decimal s).length + zeros - 1) := by
  obtain ⟨rfl, rfl⟩ : (shortest n).1 = s ∧ (shortest n).2 = zeros := by rw [h]; exact ⟨rfl, rfl⟩
  rfl

/-- A double below `10 ^ 21` is written in digits that are read as it. -/
theorem numberOf_showNumber {n : Nat} (hn : toDouble n = n) (hlt : n < 10 ^ 21) : ∃ digits : Text,
    showNumber (some n) = digits ∧ digits ≠ [] ∧ (∀ c ∈ digits, c.isDigit = true) ∧
      numberOf (Nat.ofDigitChars 10 digits 0) = some n := by
  obtain ⟨s, zeros, hshort, hround, hzeros, hs⟩ := shortest_spec hn
  have hlen : (decimal n).length ≤ 21 := (length_decimal_le (by omega)).2 hlt
  have hpow : 10 ^ zeros * 10 ^ (21 - zeros) = 10 ^ 21 := by
    rw [← Nat.pow_add, show zeros + (21 - zeros) = 21 by omega]
  have hfront : n / 10 ^ zeros < 10 ^ (21 - zeros) :=
    (Nat.div_lt_iff_lt_mul (Nat.pow_pos (by omega))).2 (by rw [Nat.mul_comm, hpow]; exact hlt)
  have hsmall : s < 10 ^ (21 - zeros) := by
    rcases Nat.lt_or_ge s (10 ^ (21 - zeros)) with h | h
    · exact h
    · -- one more than the front could only be `10 ^ 21` itself, which is a double
      have heq : s = 10 ^ (21 - zeros) := by omega
      rw [heq, Nat.mul_comm, hpow, show toDouble (10 ^ 21) = 10 ^ 21 by decide] at hround
      omega
  have hdigits : (decimal s).length + zeros ≤ 21 := by
    have := (length_decimal_le (show 0 < 21 - zeros by omega)).2 hsmall
    omega
  refine ⟨decimal s ++ List.replicate zeros '0', ?_, ?_, fun c hc => ?_, ?_⟩
  · rw [showNumber_eq hshort, if_pos hdigits]
  · simp [decimal_ne_nil]
  · rcases List.mem_append.1 hc with hc | hc
    · exact isDigit_of_mem_decimal hc
    · rw [(List.mem_replicate.1 hc).2]
      decide
  · rw [Nat.ofDigitChars_append, Nat.ofDigitChars_replicate_zero,
      show Nat.ofDigitChars 10 (decimal s) 0 = s from Nat.ofDigitChars_ten_toDigits, Nat.mul_comm]
    exact numberOf_of_toDouble hround (by omega)

/-- A larger double is written with an exponent. -/
theorem exponent_of_showNumber {n : Nat} (hn : toDouble n = n) (hle : 10 ^ 21 ≤ n) : 'e' ∈ showNumber (some n) := by
  obtain ⟨s, zeros, hshort, -, -, hs⟩ := shortest_spec hn
  have hlong : ¬ (decimal s).length + zeros ≤ 21 := fun h => by
    have hpos : 0 < (decimal s).length := List.length_pos_iff.2 (decimal_ne_nil s)
    have hlt : s < 10 ^ (21 - zeros) := (length_decimal_le (by omega)).1 (by omega)
    have hpow : 10 ^ (21 - zeros) * 10 ^ zeros = 10 ^ 21 := by
      rw [← Nat.pow_add, show 21 - zeros + zeros = 21 by omega]
    have hfront : 10 ^ (21 - zeros) ≤ n / 10 ^ zeros :=
      (Nat.le_div_iff_mul_le (Nat.pow_pos (by omega))).2 (by rw [hpow]; exact hle)
    omega
  rw [showNumber_eq hshort, if_neg hlong]
  simp

end Js
