import Recouple.Lib.DoubleBounds
import Recouple.Qbo.MoneyText
import Recouple.Qbo.Reader

/-!
# Amounts QuickBooks returns: `packages/qbo/src/money.ts` (34-66)

An amount comes back as a JSON number, a double. `qboAmountToCents_iff` says which one is read as which cents: the
double nearest to them, where no other hundredth is nearer to that double.

* `readsAs_of_small`: below `2 ^ 46` dollars that is every amount.
-/

namespace Recouple.Qbo
open Js Rounding

/-- A double that is nearest to some cents, and they to it. -/
def ReadsAs (x : ℚ) (c : Int) : Prop := roundDouble ((c : ℚ) / 100) = some x ∧ halfAway (x * 100) = c

instance (x : ℚ) (c : Int) : Decidable (ReadsAs x c) := inferInstanceAs (Decidable (_ ∧ _))

/-! ## Hundredths as a decimal literal -/

theorem decimalLiteral_hundredths (n : Nat) : decimalLiteral (hundredths n) = some ((n : ℚ) / 100) := by
  obtain ⟨whole, fraction, htext, hne, hwhole, hfraction, hlength, hdollars, hcents⟩ := hundredths_eq n
  have htake : (whole ++ '.' :: fraction).takeWhile Char.isDigit = whole := by
    rw [List.takeWhile_append_of_pos hwhole, List.takeWhile_cons_of_neg (by decide), List.append_nil]
  have hdrop : (whole ++ '.' :: fraction).dropWhile Char.isDigit = '.' :: fraction := by
    rw [List.dropWhile_append_of_pos hwhole, List.dropWhile_cons_of_neg (by decide)]
  have hdigits : digitsOf (whole ++ fraction) = n := by
    rw [digitsOf_append, hlength, hdollars, hcents]
    omega
  unfold decimalLiteral
  rw [htext, htake, hdrop]
  simp only [List.takeWhile_eq_self_iff.2 hfraction, List.dropWhile_eq_nil_iff.2 hfraction, if_neg hne]
  rw [show Nat.ofDigitChars 10 (whole ++ fraction) 0 = n from hdigits, hlength]
  norm_num

theorem numberFrom_hundredths (negative : Bool) (n : Nat) :
    numberFrom ((if negative then ['-'] else []) ++ hundredths n) =
      roundDouble ((if negative then -1 else 1) * ((n : ℚ) / 100)) := by
  cases negative with
  | true =>
    change (decimalLiteral (hundredths n)).bind (fun x => roundDouble (-x)) = _
    rw [decimalLiteral_hundredths]
    simp
  | false =>
    obtain ⟨whole, fraction, htext, hne, hwhole, -⟩ := hundredths_eq n
    have hnumber : numberFrom (hundredths n) = (decimalLiteral (hundredths n)).bind roundDouble := by
      obtain ⟨c, rest, rfl⟩ := List.exists_cons_of_ne_nil hne
      rw [htext]
      unfold numberFrom
      split
      case h_1 after hafter =>
        have hdash : c = '-' := (List.cons.inj hafter).1
        rw [hdash] at hwhole
        exact absurd (hwhole '-' List.mem_cons_self) (by decide)
      case h_2 => rfl
    change numberFrom (hundredths n) = _
    rw [hnumber, decimalLiteral_hundredths]
    simp

/-! ## Two places of a double -/

theorem halfAway_of_nonneg {x : ℚ} (h : 0 ≤ x) : halfAway x = (⌊x + 1 / 2⌋.toNat : Int) := by
  have hfloor : 0 ≤ ⌊x + 1 / 2⌋ := Int.floor_nonneg.2 (by linarith)
  rw [halfAway, if_neg (not_lt.2 h), round_eq, Int.toNat_of_nonneg hfloor]

theorem halfAway_neg_eq (x : ℚ) : halfAway (-x) = -halfAway x := by
  unfold halfAway
  rcases lt_trichotomy x 0 with h | rfl | h
  · rw [if_neg (by linarith), if_pos h, neg_neg]
  · simp
  · rw [if_pos (by linarith), if_neg (by linarith), neg_neg]

theorem toFixedAbs_eq {x : ℚ} (h : ¬ 10 ^ 21 ≤ x) (hx : 0 ≤ x) : toFixedAbs x = hundredths (halfAway (x * 100)).natAbs := by
  rw [toFixedAbs, if_neg h, halfAway_of_nonneg (by linarith), Int.natAbs_natCast]
  rfl

/-- Two places, below the numbers written with an exponent. -/
theorem toFixed2_eq {x : ℚ} (h : |x| < 10 ^ 21) :
    toFixed2 x = (if decide (x < 0) then ['-'] else []) ++ hundredths (halfAway (x * 100)).natAbs := by
  unfold toFixed2
  by_cases hneg : x < 0
  · rw [abs_of_neg hneg] at h
    rw [if_pos hneg, if_pos (by simpa using hneg), toFixedAbs_eq (not_le.2 h) (by linarith), neg_mul, halfAway_neg_eq,
      Int.natAbs_neg]
    rfl
  · rw [not_lt] at hneg
    rw [abs_of_nonneg hneg] at h
    rw [if_neg (not_lt.2 hneg), if_neg (by simpa using hneg), toFixedAbs_eq (not_le.2 h) hneg]
    rfl

theorem halfAway_sign (x : ℚ) :
    halfAway (x * 100) = (if decide (x < 0) then -1 else 1) * ((halfAway (x * 100)).natAbs : Int) := by
  by_cases hneg : x < 0
  · have hnonneg : 0 ≤ halfAway (-x * 100) := by
      rw [halfAway_of_nonneg (by linarith)]
      positivity
    rw [neg_mul, halfAway_neg_eq] at hnonneg
    rw [if_pos (by simpa using hneg)]
    omega
  · have hnonneg : 0 ≤ halfAway (x * 100) := by
      rw [halfAway_of_nonneg (by linarith)]
      positivity
    rw [if_neg (by simpa using hneg)]
    omega

section
variable {T : CaseTables}

theorem parse_hundredths (hT : UpperCase T) (negative : Bool) (n : Nat) {c : Cents} :
    parseMoneyToCents T ((if negative then ['-'] else []) ++ hundredths n) = .ok c ↔
      c.val = (if negative then -1 else 1) * (n : Int) := by
  obtain ⟨whole, fraction, htext, hne, hwhole, hfraction, hlength, hdollars, hcents⟩ := hundredths_eq n
  have hread := readPrinted_written hT (fun c hc => .inl (hwhole c hc)) hfraction
    (by rwa [filter_digits hwhole]) (groupedInThrees_digits hwhole) negative false
  rw [filter_digits hwhole] at hread
  have hsign : (if negative then ['-'] else []) ++ hundredths n = signText negative false ++ (whole ++ '.' :: fraction) := by
    rw [htext]
    simp [signText]
  have hdigits : digitsOf (centsDigits ⟨negative, whole, fraction⟩) = n := by
    have hfull : fraction ≠ [] := fun e => by simp [e] at hlength
    rw [centsDigits, if_neg hfull, List.take_of_length_le hlength.le, digitsOf_append, hlength, hdollars, hcents]
    omega
  rw [hsign, parseMoneyToCents_ok]
  constructor
  · rintro ⟨printed, hprinted, -, hval⟩
    obtain rfl := Except.ok.inj (hread.symm.trans hprinted)
    rw [hval, hdigits]
    cases negative <;> simp
  · intro hval
    refine ⟨_, hread, .inr ⟨hlength.ge, ?_, ?_⟩, ?_⟩
    · dsimp only
      omega
    · dsimp only
      rw [List.drop_of_length_le hlength.le]
      exact fun _ hc => absurd hc List.not_mem_nil
    · rw [hval, hdigits]
      cases negative <;> simp

/-! ## Numbers written with an exponent -/

/-- A text with an `e` in it is no amount. -/
theorem not_parsed_of_mem (hT : UpperCase T) {text : Text} (h : 'e' ∈ text) {c : Cents} :
    ¬ parseMoneyToCents T text = .ok c := by
  intro hparse
  obtain ⟨printed, hprinted, -⟩ := parseMoneyToCents_ok.1 hparse
  obtain ⟨parens, marker, core, sign, numeral, hprinting⟩ := readPrinted_printing hprinted
  have hmem : 'E' ∈ T.toUpperCase (trim text) := by
    refine List.mem_flatMap.2 ⟨'e', mem_trim h (by decide), ?_⟩
    rw [hT.ascii 'e' (by decide)]
    decide
  have hcount := hprinting.count_eq (c := 'E') (by decide) (by decide)
  have hsign : sign.count 'E' = 0 := by
    rcases hprinting.signed with rfl | rfl | rfl <;> decide
  have hmarker : (markerText marker).count 'E' = 0 := by
    refine List.count_eq_zero.2 fun hmem => ?_
    rcases mem_markerText hmem with e | e | e <;> exact absurd e (by decide)
  have hparens : ∀ d : Char, d ≠ 'E' → (if parens then [d] else []).count 'E' = 0 := by
    intro d hd
    cases parens <;> simp [hd]
  rw [hsign, hmarker, hparens '(' (by decide), hparens ')' (by decide)] at hcount
  exact List.count_pos_iff.2 hmem |>.ne' hcount

end

/-- `i + 1` digits that round to a positive double, if some do. -/
def digitsAt (x : ℚ) (i : Nat) : Option (Text × Int) :=
  let p : ℚ := 10 ^ (Int.log 10 x + 1 - (i + 1))
  let f := (⌊x / p⌋).toNat
  let near := if x / p - f ≤ 1 / 2 then [f, f + 1] else [f + 1, f]
  (near.find? fun s : Nat => decide (roundDouble ((s : ℚ) * p) = some x)).map fun s : Nat =>
    ((decimal s).rdropWhile (· = '0'), Int.log 10 x + 1 + (decimal s).length - (i + 1))

theorem shortestDigits_eq (x : ℚ) : shortestDigits x = ((List.range 17).findSome? (digitsAt x)).getD ([], 0) := rfl

/-- The digits found have no fewer places than the number. -/
theorem digitsAt_place {x : ℚ} (hx : 0 < x) {i : Nat} {found : Text × Int} (h : digitsAt x i = some found) :
    Int.log 10 x + 1 ≤ found.2 := by
  obtain ⟨s, hs, rfl⟩ := Option.map_eq_some_iff.1 h
  have hfront : 10 ^ i ≤ (⌊x / 10 ^ (Int.log 10 x + 1 - ((i : Int) + 1))⌋).toNat := by
    have hscale : (((10 ^ i : Nat) : Int) : ℚ) ≤ x / 10 ^ (Int.log 10 x + 1 - ((i : Int) + 1)) := by
      rw [le_div_iff₀ (by positivity)]
      push_cast
      rw [← zpow_natCast, ← zpow_add₀ (by norm_num)]
      calc (10 : ℚ) ^ ((i : Int) + (Int.log 10 x + 1 - ((i : Int) + 1))) = (10 : ℚ) ^ Int.log 10 x := by
            congr 1
            ring
        _ ≤ x := Int.zpow_log_le_self (by norm_num) hx
    have hfloor := Int.le_floor.2 hscale
    omega
  have hge : 10 ^ i ≤ s := by
    have hmem := List.mem_of_find?_eq_some hs
    generalize (⌊x / 10 ^ (Int.log 10 x + 1 - ((i : Int) + 1))⌋).toNat = front at *
    split at hmem
    · rcases List.mem_pair.1 hmem with rfl | rfl <;> omega
    · rcases List.mem_pair.1 hmem with rfl | rfl <;> omega
  have hlength : i < (decimal s).length := by
    by_contra hnot
    have hpos : 0 < (decimal s).length := List.length_pos_iff.2 (decimal_ne_nil s)
    have hlt := (@length_decimal_le s i (by omega)).1 (by omega)
    omega
  dsimp only
  omega

/-- From `10 ^ 21` on a number is written with an exponent, or not at all. -/
theorem positiveToString_large {x : ℚ} (h : 10 ^ 21 ≤ x) : positiveToString x = [] ∨ 'e' ∈ positiveToString x := by
  have hpos : 0 < x := lt_of_lt_of_le (by norm_num) h
  have hlog : 21 ≤ Int.log 10 x := (Int.zpow_le_iff_le_log (by norm_num) hpos).1 (by exact_mod_cast h)
  unfold positiveToString
  rw [shortestDigits_eq]
  cases hfound : (List.range 17).findSome? (digitsAt x) with
  | none => exact .inl rfl
  | some found =>
    obtain ⟨i, -, hi⟩ := List.exists_of_findSome?_eq_some hfound
    have hplace := digitsAt_place hpos hi
    right
    dsimp only [Option.getD_some]
    rw [if_neg (by omega), if_neg (by omega), if_neg (by omega)]
    simp

theorem not_read_of_large {T : CaseTables} (hT : UpperCase T) {x : ℚ} (h : 10 ^ 21 ≤ |x|) {c : Cents} :
    ¬ (numberFrom (toFixed2 x) = some x ∧ parseMoneyToCents T (toFixed2 x) = .ok c) := by
  have htext : ∀ y : ℚ, 10 ^ 21 ≤ y → toFixedAbs y = [] ∨ 'e' ∈ toFixedAbs y := by
    intro y hy
    rw [toFixedAbs, if_pos hy]
    exact positiveToString_large hy
  have hread : toFixed2 x = [] ∨ toFixed2 x = ['-'] ∨ 'e' ∈ toFixed2 x := by
    unfold toFixed2
    by_cases hneg : x < 0
    · rw [abs_of_neg hneg] at h
      rw [if_pos hneg]
      rcases htext _ h with hnil | he
      · exact .inr (.inl (by rw [hnil]))
      · exact .inr (.inr (List.mem_cons_of_mem _ he))
    · rw [abs_of_nonneg (not_lt.1 hneg)] at h
      rw [if_neg hneg]
      exact (htext _ h).imp_right .inr
  rcases hread with hnil | hdash | he
  · rw [hnil]
    rintro ⟨hnumber, -⟩
    cases hnumber
  · rw [hdash]
    rintro ⟨hnumber, -⟩
    cases hnumber
  · exact fun hread => not_parsed_of_mem hT he hread.2

/-! ## What is read -/

section
variable {T : CaseTables} {value : Option Value} {path : Text} {c : Cents}

/-- **Which number is read as which cents.** -/
theorem qboAmountToCents_iff (hT : UpperCase T) :
    qboAmountToCents T value path = .ok c ↔ ∃ x, value = some (.num x) ∧ ReadsAs x c.val := by
  rw [qboAmountToCents_ok]
  refine exists_congr fun x => and_congr_right fun _ => ?_
  by_cases hlarge : 10 ^ 21 ≤ |x|
  · refine iff_of_false (not_read_of_large hT hlarge) fun h => ?_
    have hupper := c.upper
    have hlower := c.lower
    unfold maxSafe at hupper hlower
    have hcast : ((halfAway (x * 100) : ℤ) : ℚ) = (c.val : ℚ) := by rw [h.2]
    have hnear := abs_sub_halfAway (x * 100)
    rw [hcast] at hnear
    have hbound : |(c.val : ℚ)| ≤ 9007199254740991 := by
      rw [abs_le]
      exact ⟨by exact_mod_cast hlower, by exact_mod_cast hupper⟩
    have habs : |x * 100| ≤ |x * 100 - c.val| + |(c.val : ℚ)| := by
      calc |x * 100| = |x * 100 - c.val + c.val| := by ring_nf
        _ ≤ |x * 100 - c.val| + |(c.val : ℚ)| := abs_add_le _ _
    rw [abs_mul, abs_of_pos (by norm_num : (0 : ℚ) < 100)] at habs
    linarith
  · rw [not_le] at hlarge
    have hsign := halfAway_sign x
    rw [toFixed2_eq hlarge, numberFrom_hundredths, parse_hundredths hT, ← hsign]
    have hvalue : ((if decide (x < 0) then -1 else 1) * (((halfAway (x * 100)).natAbs : ℚ) / 100) : ℚ) =
        (halfAway (x * 100) : ℚ) / 100 := by
      have hcast := congrArg (fun n : ℤ => (n : ℚ) / 100) hsign
      simp only [Int.cast_mul, Int.cast_natCast, Int.cast_ite, Int.cast_neg, Int.cast_one] at hcast
      rw [hcast]
      ring
    rw [hvalue]
    constructor
    · rintro ⟨hround, hval⟩
      exact ⟨by rw [hval]; exact hround, hval.symm⟩
    · rintro ⟨hround, hval⟩
      exact ⟨by rw [hval]; exact hround, hval.symm⟩

end

/-- Below `2 ^ 46` dollars the double nearest to some cents is read as them. -/
theorem readsAs_of_small {c : Int} (h : |c| < 2 ^ 46 * 100) : ∃ x, ReadsAs x c := by
  by_cases hc : c = 0
  · exact ⟨0, by subst hc; decide +kernel⟩
  have habs : |(c : ℚ) / 100| = |(c : ℚ)| / 100 := by rw [abs_div, abs_of_pos (by norm_num : (0 : ℚ) < 100)]
  have hone : (1 : ℚ) ≤ |(c : ℚ)| := by exact_mod_cast Int.one_le_abs hc
  have hlt : |(c : ℚ)| < 2 ^ 46 * 100 := by exact_mod_cast h
  have hlow : (2 : ℚ) ^ (-1022 : ℤ) ≤ |(c : ℚ) / 100| := by
    rw [habs]
    calc (2 : ℚ) ^ (-1022 : ℤ) ≤ 2 ^ (-7 : ℤ) := zpow_le_zpow_right₀ (by norm_num) (by norm_num)
      _ ≤ |(c : ℚ)| / 100 := by
        rw [le_div_iff₀ (by norm_num)]
        exact le_trans (by norm_num) hone
  have hhigh : |(c : ℚ) / 100| ≤ 2 ^ 1000 := by
    rw [habs, div_le_iff₀ (by norm_num)]
    calc |(c : ℚ)| ≤ 2 ^ 46 * 100 := hlt.le
      _ ≤ 2 ^ 1000 * 100 := by
        refine mul_le_mul_of_nonneg_right ?_ (by norm_num)
        exact pow_le_pow_right₀ (by norm_num) (by norm_num)
  obtain ⟨x, hx⟩ := roundDouble_returns hlow hhigh
  refine ⟨x, hx, ?_⟩
  have hspacing : spacing ((c : ℚ) / 100) ≤ 2 ^ (-7 : ℤ) := by
    refine zpow_le_zpow_right₀ (by norm_num) (max_le ?_ (by norm_num))
    have hpos : 0 < |(c : ℚ) / 100| := by
      rw [habs]
      linarith
    have hlog : Int.log 2 |(c : ℚ) / 100| < 46 := by
      rw [← Int.lt_zpow_iff_log_lt (by norm_num) hpos, habs, div_lt_iff₀ (by norm_num)]
      exact_mod_cast hlt
    omega
  have hnear := roundDouble_near hx
  have hclose : |(c : ℚ) - x * 100| < 1 / 2 := by
    have hscale : (c : ℚ) - x * 100 = ((c : ℚ) / 100 - x) * 100 := by ring
    rw [hscale, abs_mul, abs_of_pos (by norm_num : (0 : ℚ) < 100)]
    have hquarter : (2 : ℚ) ^ (-7 : ℤ) = 1 / 128 := by norm_num
    rw [hquarter] at hspacing
    linarith
  have hround := abs_sub_halfAway (x * 100)
  have hunit : |((c - halfAway (x * 100) : ℤ) : ℚ)| < 1 := by
    push_cast
    calc |(c : ℚ) - halfAway (x * 100)| = |((c : ℚ) - x * 100) + (x * 100 - halfAway (x * 100))| := by ring_nf
      _ ≤ |(c : ℚ) - x * 100| + |x * 100 - halfAway (x * 100)| := abs_add_le _ _
      _ < 1 := by linarith
  have hint : |c - halfAway (x * 100)| < 1 := by exact_mod_cast hunit
  rw [Int.abs_lt_one_iff] at hint
  omega

end Recouple.Qbo
