import Recouple.Core.NumberCell
import Recouple.Lib.NumberText
import Recouple.Lib.Thousands

/-!
# Writing money and reading it back: `packages/core-domain/src/money.ts` (141-343, 422-445, 470-515)

| here | there |
| --- | --- |
| `decimalValue` | the digits before and after a point |
| `printedValue` | `PrintedNumber` |
| `denoted` | a spreadsheet's number text |

* `parseMoneyToCents_iff_exact`: an amount is a unit price that was not rounded.
* `readPrinted_written`: what the writers write is read digit for digit.
* `numberCellToMoneyText_value`: money text denotes the number its cell does.
-/

namespace Recouple
open Js Rounding

/-! ## Digits before and after a point -/

theorem digitsOf_cons (c : Char) (digits : Text) :
    digitsOf (c :: digits) = 10 ^ digits.length * digitsOf [c] + digitsOf digits :=
  digitsOf_append [c] digits

theorem digitsOf_digit {c : Char} (h : c.isDigit = true) : digitsOf [c] = c.toNat - 48 ∧ 48 ≤ c.toNat ∧ c.toNat ≤ 57 := by
  have hrange : 48 ≤ c.toNat ∧ c.toNat ≤ 57 := by simpa [Char.isDigit, UInt32.le_iff_toNat_le] using h
  exact ⟨by simp [digitsOf, Nat.ofDigitChars_cons], hrange⟩

theorem digitsOf_lt {digits : Text} (h : ∀ c ∈ digits, c.isDigit = true) : digitsOf digits < 10 ^ digits.length := by
  induction digits with
  | nil => decide
  | cons c digits ih =>
    rw [List.forall_mem_cons] at h
    obtain ⟨hdigit, -, hle⟩ := digitsOf_digit h.1
    have hrest := ih h.2
    have hfirst : 10 ^ digits.length * digitsOf [c] ≤ 10 ^ digits.length * 9 := Nat.mul_le_mul_left _ (by omega)
    rw [digitsOf_cons, List.length_cons, Nat.pow_succ]
    omega

theorem zeros_of_digitsOf {digits : Text} (h : ∀ c ∈ digits, c.isDigit = true) (hzero : digitsOf digits = 0) :
    ∀ c ∈ digits, c = '0' := by
  induction digits with
  | nil => exact fun _ hc => absurd hc List.not_mem_nil
  | cons c digits ih =>
    rw [List.forall_mem_cons] at h ⊢
    obtain ⟨hdigit, hge, -⟩ := digitsOf_digit h.1
    rw [digitsOf_cons, Nat.add_eq_zero_iff, Nat.mul_eq_zero] at hzero
    have hpow : 10 ^ digits.length ≠ 0 := (Nat.pow_pos (by omega)).ne'
    have hfirst := hzero.1.resolve_left hpow
    exact ⟨Char.toNat_inj.1 (show c.toNat = 48 by omega), ih h.2 hzero.2⟩

/-- The number that digits before a point and digits after it write. -/
def decimalValue (whole fraction : Text) : ℚ := digitsOf (whole ++ fraction) / 10 ^ fraction.length

theorem decimalValue_add (whole fraction : Text) :
    decimalValue whole fraction = digitsOf whole + digitsOf fraction / 10 ^ fraction.length := by
  have hpow : (10 : ℚ) ^ fraction.length ≠ 0 := by positivity
  rw [decimalValue, digitsOf_append]
  push_cast
  field_simp

/-- Zeros at the end of the fraction are worth nothing. -/
theorem decimalValue_zeros (whole fraction : Text) {zeros : Text} (h : ∀ c ∈ zeros, c = '0') :
    decimalValue whole (fraction ++ zeros) = decimalValue whole fraction := by
  have hpow : (10 : ℚ) ^ fraction.length ≠ 0 := by positivity
  have hzeros : (10 : ℚ) ^ zeros.length ≠ 0 := by positivity
  rw [decimalValue_add, decimalValue_add, digitsOf_append, digitsOf_zeros h, List.length_append, pow_add]
  push_cast
  field_simp
  ring

theorem decimalValue_take {fraction : Text} {n : Nat} (whole : Text) (h : ∀ c ∈ fraction.drop n, c = '0') :
    decimalValue whole (fraction.take n) = decimalValue whole fraction := by
  conv_rhs => rw [← List.take_append_drop n fraction]
  exact (decimalValue_zeros whole _ h).symm

/-! ## An amount is a price that was not rounded -/

/-- The number a text that was read prints. -/
def printedValue (printed : PrintedNumber) : ℚ :=
  (if printed.negative then -1 else 1) * decimalValue printed.whole printed.fraction

/-- The printed price, in dollars. -/
def UnitPrice.value (price : UnitPrice) : ℚ := price.units / 10 ^ price.places

theorem unitsOf_eq (printed : PrintedNumber) :
    (unitsOf printed : ℚ) / 10 ^ printed.fraction.length = printedValue printed := by
  unfold unitsOf printedValue decimalValue
  split
  · push_cast
    ring
  · simp

theorem halfAway_intCast (n : Int) : halfAway n = n := by
  unfold halfAway
  split
  · rw [← Int.cast_neg, round_intCast, neg_neg]
  · exact round_intCast n

theorem compareUnitPrices_eq_zero {a b : UnitPrice} : compareUnitPrices a b = 0 ↔ a.value = b.value := by
  have ha : (10 : ℚ) ^ a.places ≠ 0 := by positivity
  have hb : (10 : ℚ) ^ b.places ≠ 0 := by positivity
  have hcross : a.value = b.value ↔ a.units * 10 ^ b.places = b.units * 10 ^ a.places := by
    rw [UnitPrice.value, UnitPrice.value, div_eq_div_iff ha hb]
    exact_mod_cast Iff.rfl
  rw [hcross]
  unfold compareUnitPrices
  dsimp only
  split_ifs with heq hlt
  · exact iff_of_true rfl heq
  · exact iff_of_false (by decide) heq
  · exact iff_of_false (by decide) heq

section
variable {T : CaseTables} {text : Text}

theorem digits_of_readPrinted {printed : PrintedNumber} (h : readPrinted T text = .ok printed) :
    ∀ c ∈ printed.fraction, c.isDigit = true := by
  obtain ⟨parens, marker, core, sign, numeral, hprinting⟩ := readPrinted_printing h
  rw [hprinting.printed]
  exact (amountShape_split hprinting.shape).2.1

theorem parseMoneyToCents_iff_value {amount : Cents} : parseMoneyToCents T text = .ok amount ↔
    ∃ printed, readPrinted T text = .ok printed ∧ AmountFraction printed.fraction ∧
      (amount.val : ℚ) = printedValue printed * 100 := by
  rw [parseMoneyToCents_ok]
  refine exists_congr fun printed => and_congr_right fun _ => and_congr_right fun hfraction => ?_
  have hcents := centsDigits_eq hfraction
  unfold printedValue decimalValue
  rw [mul_assoc, ← hcents]
  split
  · rw [neg_one_mul]
    exact_mod_cast Iff.rfl
  · rw [one_mul]
    exact_mod_cast Iff.rfl

theorem parseUnitPrice_iff_value {price : UnitPrice} : parseUnitPrice T text = .ok price ↔
    ∃ printed, readPrinted T text = .ok printed ∧ printed.fraction.length ≠ 1 ∧ printed.fraction.length ≠ 3 ∧
      price.units = unitsOf printed ∧ price.places = printed.fraction.length ∧
      price.cents.val = halfAway (printedValue printed * 100) ∧
      price.rounded = decide (unitsOf printed * 100 % 10 ^ printed.fraction.length ≠ 0) := by
  rw [parseUnitPrice_ok]
  refine exists_congr fun printed => and_congr_right fun _ => and_congr_right fun _ => and_congr_right fun _ => ?_
  constructor
  · rintro ⟨hunits, hplaces, hcents, hrounded⟩
    rw [hunits, hplaces] at hcents hrounded
    refine ⟨hunits, hplaces, ?_, hrounded⟩
    rw [hcents, divRoundHalfUp_eq _ (by positivity), ← unitsOf_eq]
    push_cast
    ring_nf
  · rintro ⟨hunits, hplaces, hcents, hrounded⟩
    refine ⟨hunits, hplaces, ?_, by rw [hunits, hplaces, hrounded]⟩
    rw [hcents, hunits, hplaces, divRoundHalfUp_eq _ (by positivity), ← unitsOf_eq]
    push_cast
    ring_nf

/-- A price is not rounded exactly where an amount could print its digits. -/
theorem unrounded_iff {printed : PrintedNumber} (h : readPrinted T text = .ok printed) :
    AmountFraction printed.fraction ↔ printed.fraction.length ≠ 1 ∧ printed.fraction.length ≠ 3 ∧
      unitsOf printed * 100 % 10 ^ printed.fraction.length = 0 := by
  have hdvd : (unitsOf printed * 100 % 10 ^ printed.fraction.length = 0) ↔
      10 ^ printed.fraction.length ∣ digitsOf (printed.whole ++ printed.fraction) * 100 := by
    rw [← Int.dvd_iff_emod_eq_zero, ← Int.natCast_dvd_natCast]
    unfold unitsOf
    push_cast
    split
    · rw [neg_mul, dvd_neg]
    · rfl
  rw [hdvd]
  unfold AmountFraction
  by_cases hnone : printed.fraction = []
  · simp [hnone]
  · have hpos : 0 < printed.fraction.length := List.length_pos_iff.2 hnone
    rw [or_iff_right hnone]
    by_cases hone : printed.fraction.length = 1
    · simp [hone]
    · have hpow : (10 : Nat) ^ printed.fraction.length = 10 ^ (printed.fraction.length - 2) * 100 := by
        rw [show 100 = 10 ^ 2 from rfl, ← Nat.pow_add]
        congr 1
        omega
      have hsplit : digitsOf (printed.whole ++ printed.fraction) = 10 ^ (printed.fraction.length - 2) *
          digitsOf (printed.whole ++ printed.fraction.take 2) + digitsOf (printed.fraction.drop 2) := by
        conv_lhs => rw [← List.take_append_drop 2 printed.fraction, ← List.append_assoc]
        rw [digitsOf_append, List.length_drop]
      have hdigits : ∀ c ∈ printed.fraction.drop 2, c.isDigit = true := fun c hc =>
        digits_of_readPrinted h c (List.mem_of_mem_drop hc)
      have hlt := digitsOf_lt hdigits
      rw [List.length_drop] at hlt
      rw [hpow, Nat.mul_dvd_mul_iff_right (by omega), hsplit, Nat.dvd_add_right (Nat.dvd_mul_right _ _)]
      constructor
      · rintro ⟨htwo, hthree, hzeros⟩
        exact ⟨hone, hthree, by rw [digitsOf_zeros hzeros]; exact Nat.dvd_zero _⟩
      · rintro ⟨-, hthree, hdvd⟩
        exact ⟨by omega, hthree, zeros_of_digitsOf hdigits (Nat.eq_zero_of_dvd_of_lt hdvd hlt)⟩

theorem parseMoneyToCents_iff_exact {amount : Cents} : parseMoneyToCents T text = .ok amount ↔
    ∃ price, parseUnitPrice T text = .ok price ∧ price.rounded = false ∧ price.cents = amount := by
  constructor
  · intro h
    obtain ⟨printed, hprinted, hfraction, hvalue⟩ := parseMoneyToCents_iff_value.1 h
    obtain ⟨hone, hthree, hexact⟩ := (unrounded_iff hprinted).1 hfraction
    refine ⟨⟨amount, false, unitsOf printed, printed.fraction.length⟩, parseUnitPrice_iff_value.2
      ⟨printed, hprinted, hone, hthree, rfl, rfl, ?_, ?_⟩, rfl, rfl⟩
    · rw [← hvalue, halfAway_intCast]
    · simp [hexact]
  · rintro ⟨price, hprice, hrounded, rfl⟩
    obtain ⟨printed, hprinted, hone, hthree, -, -, hcents, hrule⟩ := parseUnitPrice_iff_value.1 hprice
    have hexact : unitsOf printed * 100 % 10 ^ printed.fraction.length = 0 := by
      rw [hrounded, eq_comm, decide_eq_false_iff_not, not_not] at hrule
      exact hrule
    have hfraction := (unrounded_iff hprinted).2 ⟨hone, hthree, hexact⟩
    refine parseMoneyToCents_iff_value.2 ⟨printed, hprinted, hfraction, ?_⟩
    obtain ⟨n, hn⟩ : ∃ n : Int, printedValue printed * 100 = n := by
      have hcents := centsDigits_eq hfraction
      unfold printedValue decimalValue
      rw [mul_assoc, ← hcents]
      split
      · exact ⟨-digitsOf (centsDigits printed), by push_cast; ring⟩
      · exact ⟨digitsOf (centsDigits printed), by push_cast; ring⟩
    rw [hcents, hn, halfAway_intCast]

end

/-! ## What the writers write is read digit for digit -/

/-- The characters the writers write: ASCII without letters, without white space and without parentheses. -/
def isPlain (c : Char) : Bool := c.isDigit || c == ',' || c == '.' || c == '-' || c == '$'

theorem isPlain_caseless {c : Char} (h : isPlain c = true) :
    c.toNat < 128 ∧ c.isAlpha = false ∧ isSpace c = false ∧ c ≠ '(' := by
  have hcases : isNumeral c = true ∨ c = '-' ∨ c = '$' := by
    simpa [isPlain, isNumeral, or_assoc] using h
  rcases hcases with hnumeral | rfl | rfl
  · obtain ⟨hascii, halpha, hspace, -⟩ := isNumeral_plain hnumeral
    exact ⟨hascii, halpha, hspace, by rintro rfl; exact absurd hnumeral (by decide)⟩
  · decide
  · decide

theorem isPlain_of_isNumeral {c : Char} (h : isNumeral c = true) : isPlain c = true := by
  unfold isPlain
  unfold isNumeral at h
  rw [h]
  rfl

theorem dropUSD_eq_self {t : Text} (h : 'U' ∉ t) (inWord : Bool) : dropUSD inWord t = t := by
  induction t generalizing inWord with
  | nil => rw [dropUSD]
  | cons c t ih =>
    rw [List.mem_cons, not_or] at h
    rw [dropUSD]
    · rw [ih h.2]
    · rintro rest hc -
      exact h.1 hc.symm

/-- An optional minus sign and an optional dollar sign. -/
def signText (negative dollar : Bool) : Text := (if negative then ['-'] else []) ++ if dollar then ['$'] else []

theorem mem_signText {negative dollar : Bool} {c : Char} (h : c ∈ signText negative dollar) : c = '-' ∨ c = '$' := by
  rcases List.mem_append.1 h with h | h
  · cases negative with
    | false => exact absurd h List.not_mem_nil
    | true => exact .inl (List.mem_singleton.1 h)
  · cases dollar with
    | false => exact absurd h List.not_mem_nil
    | true => exact .inr (List.mem_singleton.1 h)

theorem wholeOf_written {whole : Text} (hwhole : ∀ c ∈ whole, c.isDigit = true ∨ c = ',') (fraction : Text) :
    wholeOf (whole ++ '.' :: fraction) = whole ∧ fractionOf (whole ++ '.' :: fraction) = fraction := by
  have hpoint : ∀ c ∈ whole, decide (c ≠ '.') = true := by
    intro c hc
    rcases hwhole c hc with hdigit | rfl
    · refine decide_eq_true fun e => ?_
      subst e
      exact absurd hdigit (by decide)
    · decide
  constructor
  · rw [wholeOf, List.takeWhile_append_of_pos hpoint, List.takeWhile_cons_of_neg (by decide), List.append_nil]
  · rw [fractionOf, List.dropWhile_append_of_pos hpoint, List.dropWhile_cons_of_neg (by decide)]
    rfl

theorem amountShape_written {whole fraction : Text} (hwhole : ∀ c ∈ whole, c.isDigit = true ∨ c = ',')
    (hfraction : ∀ c ∈ fraction, c.isDigit = true) : amountShape (whole ++ '.' :: fraction) = true := by
  have hall : ∀ c ∈ whole, (c.isDigit || c == ',') = true := fun c hc => by simpa using hwhole c hc
  rw [amountShape, List.dropWhile_append_of_pos hall, List.dropWhile_cons_of_neg (by decide)]
  simpa using hfraction

theorem toUpperCase_plain {T : CaseTables} (hT : UpperCase T) {t : Text} (h : ∀ c ∈ t, isPlain c = true) :
    T.toUpperCase t = t := by
  induction t with
  | nil => rfl
  | cons c t ih =>
    rw [List.forall_mem_cons] at h
    obtain ⟨hascii, halpha, -⟩ := isPlain_caseless h.1
    rw [CaseTables.toUpperCase, List.flatMap_cons, hT.upper_eq_self hascii halpha, ← CaseTables.toUpperCase, ih h.2]
    rfl

theorem unparenthesised_plain {t : Text} (h : ∀ c ∈ t, isPlain c = true) : unparenthesised t = (false, t) := by
  have hnone : parenthesised t = none := by
    cases t with
    | nil => rfl
    | cons c t =>
      rw [parenthesised]
      rintro rest hc
      exact (isPlain_caseless (h c List.mem_cons_self)).2.2.2 (List.cons.inj hc).1
  rw [unparenthesised, hnone]

theorem unmarked_plain {t : Text} (h : ∀ c ∈ t, isPlain c = true) (negative : Bool) :
    unmarked (negative, t) = (negative, t) := by
  have hletter : ∀ c ∈ t.drop (t.length - 2), c.isAlpha = false := fun c hc =>
    (isPlain_caseless (h c (List.mem_of_mem_drop hc))).2.1
  have hnone : markerOf t = none := by
    unfold markerOf
    dsimp only
    refine if_neg fun hmark => ?_
    rcases hmark.1 with hmark | hmark
    · exact absurd (hletter 'R' (by rw [hmark]; decide)) (by decide)
    · exact absurd (hletter 'R' (by rw [hmark]; decide)) (by decide)
  unfold unmarked
  dsimp only
  rw [hnone]

theorem undecorated_plain {t : Text} (h : ∀ c ∈ t, isPlain c = true) : undecorated t = t.filter (· ≠ '$') := by
  have hword : 'U' ∉ t := fun hc => absurd (h _ hc) (by decide)
  rw [undecorated, dropUSD_eq_self hword]
  refine List.filter_eq_self.2 fun c hc => ?_
  rw [(isPlain_caseless (h c (List.mem_of_mem_filter hc))).2.2.1]
  rfl

theorem unsigned_written {numeral : Text} (h : ∀ c ∈ numeral, isNumeral c = true) (negative : Bool) :
    unsigned (false, (if negative then ['-'] else []) ++ numeral) = (negative, numeral) := by
  cases negative with
  | true => rfl
  | false =>
    have hne : ∀ (d : Char) (rest : Text), isNumeral d = false → numeral ≠ d :: rest := by
      rintro d rest hd rfl
      rw [h d List.mem_cons_self] at hd
      cases hd
    unfold unsigned
    split
    case h_1 rest hread => exact absurd hread (hne '-' rest (by decide))
    case h_2 rest hread => exact absurd hread (hne '+' rest (by decide))
    case h_3 => rfl

section
variable {T : CaseTables} {whole fraction : Text}

theorem readPrinted_written (hT : UpperCase T) (hwhole : ∀ c ∈ whole, c.isDigit = true ∨ c = ',')
    (hfraction : ∀ c ∈ fraction, c.isDigit = true) (hdigits : whole.filter (· ≠ ',') ≠ [])
    (hgrouped : groupedInThrees whole = true) (negative dollar : Bool) :
    readPrinted T (signText negative dollar ++ (whole ++ '.' :: fraction)) =
      .ok ⟨negative, whole.filter (· ≠ ','), fraction⟩ := by
  have hnumeral := isNumeral_of_amountShape (amountShape_written hwhole hfraction)
  have hplain : ∀ c ∈ signText negative dollar ++ (whole ++ '.' :: fraction), isPlain c = true := by
    intro c hc
    rcases List.mem_append.1 hc with hc | hc
    · rcases mem_signText hc with rfl | rfl <;> decide
    · exact isPlain_of_isNumeral (hnumeral c hc)
  have hfilter : (signText negative dollar ++ (whole ++ '.' :: fraction)).filter (· ≠ '$') =
      (if negative then ['-'] else []) ++ (whole ++ '.' :: fraction) := by
    rw [List.filter_append, List.filter_eq_self (l := whole ++ '.' :: fraction) |>.2]
    · cases negative <;> cases dollar <;> rfl
    · intro c hc
      refine decide_eq_true ?_
      rintro rfl
      exact absurd (hnumeral _ hc) (by decide)
  obtain ⟨hwholeOf, hfractionOf⟩ := wholeOf_written hwhole fraction
  have hne : whole ≠ [] := by
    rintro rfl
    exact hdigits rfl
  rw [readPrinted_eq, trimmed_of_isSpace fun c hc => (isPlain_caseless (hplain c hc)).2.2.1, toUpperCase_plain hT hplain,
    unparenthesised_plain hplain, unmarked_plain hplain, if_neg (by simp)]
  dsimp only
  rw [undecorated_plain hplain, hfilter, unsigned_written hnumeral, partsOf_ok]
  refine ⟨⟨amountShape_written hwhole hfraction, by simp, ?_, by rwa [hwholeOf], ?_⟩, by rw [hwholeOf, hfractionOf]⟩
  · simp [List.append_eq_singleton_iff, hne]
  · rw [hwholeOf]
    exact fun h => hdigits h.1

theorem parseMoneyToCents_written (hT : UpperCase T) (hwhole : ∀ c ∈ whole, c.isDigit = true ∨ c = ',')
    (hfraction : ∀ c ∈ fraction, c.isDigit = true) (hdigits : whole.filter (· ≠ ',') ≠ [])
    (hgrouped : groupedInThrees whole = true) (hlength : fraction.length = 2) {negative : Bool} (dollar : Bool)
    {amount : Cents}
    (hvalue : (amount.val : ℚ) = (if negative then -1 else 1) * decimalValue (whole.filter (· ≠ ',')) fraction * 100) :
    parseMoneyToCents T (signText negative dollar ++ (whole ++ '.' :: fraction)) = .ok amount := by
  refine parseMoneyToCents_iff_value.2
    ⟨_, readPrinted_written hT hwhole hfraction hdigits hgrouped negative dollar, .inr ⟨hlength.ge, ?_, ?_⟩, hvalue⟩
  · dsimp only
    omega
  · dsimp only
    rw [List.drop_of_length_le hlength.le]
    exact fun _ hc => absurd hc List.not_mem_nil

/-! ## The writers -/

theorem digitsOf_decimal (n : Nat) : digitsOf (decimal n) = n := Nat.ofDigitChars_ten_toDigits

/-- `String(n).padStart(k, '0')` -/
def padded (k n : Nat) : Text := List.replicate (k - (decimal n).length) '0' ++ decimal n

theorem digitsOf_padded (k n : Nat) : digitsOf (padded k n) = n := by
  rw [padded, digitsOf_append, digitsOf_zeros fun c hc => (List.mem_replicate.1 hc).2, digitsOf_decimal, Nat.mul_zero,
    Nat.zero_add]

theorem isDigit_of_mem_padded {k n : Nat} {c : Char} (h : c ∈ padded k n) : c.isDigit = true := by
  rcases List.mem_append.1 h with h | h
  · rw [(List.mem_replicate.1 h).2]
    decide
  · exact isDigit_of_mem_decimal h

theorem length_padded {k n : Nat} (hk : 0 < k) (h : n < 10 ^ k) : (padded k n).length = k := by
  have := (length_decimal_le hk).2 h
  rw [padded, List.length_append, List.length_replicate]
  omega

theorem groupedInThrees_localeDecimal (n : Nat) : groupedInThrees (localeDecimal n) = true := by
  obtain ⟨gs, hthrees, hgroups, hflat⟩ := localeDecimal_split n
  have hsplit := splitOn_localeDecimal hthrees hgroups hflat
  obtain ⟨first, rest, rfl, hone, hthree, hrest⟩ := hthrees
  rw [groupedInThrees, hsplit]
  have hpos : first.length ≠ 0 := by omega
  have hall : (rest.all fun g => decide (g.length = 3)) = true := by simpa using hrest
  simp [hpos, hthree, hall]

theorem groupedInThrees_digits {whole : Text} (h : ∀ c ∈ whole, c.isDigit = true) : groupedInThrees whole = true := by
  have hsplit : whole.splitOn ',' = [whole] := by
    have hcomma : ∀ l ∈ [whole], ',' ∉ l := by
      intro l hl hc
      rw [List.mem_singleton.1 hl] at hc
      exact absurd (h _ hc) (by decide)
    simpa using List.splitOn_intercalate ',' hcomma (by simp)
  rw [groupedInThrees, hsplit]
  rfl

theorem filter_digits {whole : Text} (h : ∀ c ∈ whole, c.isDigit = true) : whole.filter (· ≠ ',') = whole := by
  refine List.filter_eq_self.2 fun c hc => decide_eq_true ?_
  rintro rfl
  exact absurd (h _ hc) (by decide)

/-- Cents with their sign, from their digits. -/
theorem cents_value (amount : Cents) {whole fraction : Text} (hwhole : digitsOf whole = amount.val.natAbs / 100)
    (hfraction : digitsOf fraction = amount.val.natAbs % 100) (hlength : fraction.length = 2) :
    (amount.val : ℚ) = (if decide (amount.val < 0) then -1 else 1) * decimalValue whole fraction * 100 := by
  have hsum : decimalValue whole fraction * 100 = (amount.val.natAbs : ℚ) := by
    have hnat : amount.val.natAbs / 100 * 100 + amount.val.natAbs % 100 = amount.val.natAbs := by omega
    rw [decimalValue_add, hwhole, hfraction, hlength]
    have hcast : ((amount.val.natAbs / 100 * 100 + amount.val.natAbs % 100 : Nat) : ℚ) = amount.val.natAbs := by
      rw [hnat]
    push_cast at hcast
    linarith
  rw [mul_assoc, hsum]
  by_cases hneg : amount.val < 0
  · rw [if_pos (by simpa using hneg), show (amount.val.natAbs : ℚ) = ((amount.val.natAbs : Int) : ℚ) by simp,
      show (amount.val.natAbs : Int) = -amount.val by omega]
    push_cast
    ring
  · rw [if_neg (by simpa using hneg), show (amount.val.natAbs : ℚ) = ((amount.val.natAbs : Int) : ℚ) by simp,
      show (amount.val.natAbs : Int) = amount.val by omega, one_mul]

theorem formatCents_parses (hT : UpperCase T) (amount : Cents) : parseMoneyToCents T (formatCents amount) = .ok amount := by
  have htext : formatCents amount = signText (decide (amount.val < 0)) true ++
      (localeDecimal (amount.val.natAbs / 100) ++ '.' :: padded 2 (amount.val.natAbs % 100)) := by
    simp [formatCents, signText, padTwo, padded]
  have hlength : (padded 2 (amount.val.natAbs % 100)).length = 2 := length_padded (by omega) (by omega)
  rw [htext]
  refine parseMoneyToCents_written hT (fun c => mem_localeDecimal) (fun c => isDigit_of_mem_padded) ?_
    (groupedInThrees_localeDecimal _) hlength true ?_
  · rw [filter_localeDecimal]
    exact decimal_ne_nil _
  · rw [filter_localeDecimal]
    exact cents_value amount (digitsOf_decimal _) (digitsOf_padded _ _) hlength

theorem UnitPrice.value_eq (price : UnitPrice) : price.value =
    (if decide (price.units < 0) then -1 else 1) * (price.units.natAbs / 10 ^ price.places : ℚ) := by
  unfold UnitPrice.value
  by_cases hneg : price.units < 0
  · rw [if_pos (by simpa using hneg), show (price.units.natAbs : ℚ) = ((price.units.natAbs : Int) : ℚ) by simp,
      show (price.units.natAbs : Int) = -price.units by omega]
    push_cast
    ring
  · rw [if_neg (by simpa using hneg), show (price.units.natAbs : ℚ) = ((price.units.natAbs : Int) : ℚ) by simp,
      show (price.units.natAbs : Int) = price.units by omega, one_mul]

/-- A quotient and its remainder, padded to the places of the divisor. -/
theorem decimalValue_padded (n places : Nat) :
    decimalValue (decimal (n / 10 ^ places)) (padded places (n % 10 ^ places)) = n / 10 ^ places := by
  rw [decimalValue_add, digitsOf_decimal, digitsOf_padded]
  rcases Nat.eq_zero_or_pos places with rfl | hpos
  · simp [Nat.mod_one]
  · have hpow : (10 : ℚ) ^ places ≠ 0 := by positivity
    have hnat : ((10 ^ places * (n / 10 ^ places) + n % 10 ^ places : Nat) : ℚ) = n := by rw [Nat.div_add_mod]
    push_cast at hnat
    rw [length_padded hpos (Nat.mod_lt _ (by positivity))]
    field_simp
    linarith

/-- The fraction of a written price has no fewer than two places, and not three. -/
theorem formatUnitPrice_eq (price : UnitPrice) : ∃ fraction,
    formatUnitPrice price = signText (decide (price.units < 0)) true ++
      (localeDecimal (price.units.natAbs / 10 ^ price.places) ++ '.' :: fraction) ∧
    (∀ c ∈ fraction, c.isDigit = true) ∧ fraction.length ≠ 1 ∧ fraction.length ≠ 3 ∧
    decimalValue (decimal (price.units.natAbs / 10 ^ price.places)) fraction =
      price.units.natAbs / 10 ^ price.places := by
  have hpadded := decimalValue_padded price.units.natAbs price.places
  have hdigit : ∀ c ∈ padded price.places (price.units.natAbs % 10 ^ price.places), c.isDigit = true :=
    fun c => isDigit_of_mem_padded
  have htext : formatUnitPrice price = signText (decide (price.units < 0)) true ++
      (localeDecimal (price.units.natAbs / 10 ^ price.places) ++ '.' ::
        let kept := (padded price.places (price.units.natAbs % 10 ^ price.places)).rdropWhile (· = '0')
        let cents := kept ++ List.replicate (2 - kept.length) '0'
        if cents.length = 3 then cents ++ ['0'] else cents) := by
    simp [formatUnitPrice, signText, padded]
  generalize padded price.places (price.units.natAbs % 10 ^ price.places) = digits at hpadded hdigit htext
  dsimp only at htext
  have hzeros : ∀ c ∈ digits.rtakeWhile (· = '0'), c = '0' := fun c hc => by
    simpa using List.mem_rtakeWhile_imp hc
  have hkept : ∀ c ∈ digits.rdropWhile (· = '0'), c.isDigit = true := fun c hc =>
    hdigit c ((List.rdropWhile_prefix _ _).subset hc)
  rw [← List.rdropWhile_append_rtakeWhile (p := fun c => decide (c = '0')) (l := digits),
    decimalValue_zeros _ _ hzeros] at hpadded
  generalize digits.rdropWhile (· = '0') = kept at hpadded hkept htext
  have hpad : ∀ k, ∀ c ∈ List.replicate k '0', c = '0' := fun k c hc => (List.mem_replicate.1 hc).2
  have hcents : ∀ c ∈ kept ++ List.replicate (2 - kept.length) '0', c.isDigit = true := by
    intro c hc
    rcases List.mem_append.1 hc with hc | hc
    · exact hkept c hc
    · rw [hpad _ c hc]
      decide
  have hlength : 2 ≤ (kept ++ List.replicate (2 - kept.length) '0').length := by
    rw [List.length_append, List.length_replicate]
    omega
  rw [← decimalValue_zeros _ _ (hpad (2 - kept.length))] at hpadded
  generalize kept ++ List.replicate (2 - kept.length) '0' = cents at hpadded hcents hlength htext
  by_cases hthree : cents.length = 3
  · rw [if_pos hthree] at htext
    refine ⟨_, htext, ?_, by simp [hthree], by simp [hthree], ?_⟩
    · intro c hc
      rcases List.mem_append.1 hc with hc | hc
      · exact hcents c hc
      · rw [List.mem_singleton.1 hc]
        decide
    · rw [decimalValue_zeros _ _ (by simp), hpadded]
  · rw [if_neg hthree] at htext
    exact ⟨cents, htext, hcents, by omega, hthree, hpadded⟩

theorem formatUnitPrice_parses (hT : UpperCase T) {text : Text} {price : UnitPrice}
    (h : parseUnitPrice T text = .ok price) :
    ∃ again, parseUnitPrice T (formatUnitPrice price) = .ok again ∧ compareUnitPrices again price = 0 := by
  obtain ⟨printed, -, -, -, hunits, hplaces, hcents, -⟩ := parseUnitPrice_iff_value.1 h
  have hvalue : printedValue printed = price.value := by rw [← unitsOf_eq, UnitPrice.value, hunits, hplaces]
  obtain ⟨fraction, htext, hfraction, hone, hthree, hsame⟩ := formatUnitPrice_eq price
  have hread := @readPrinted_written T (localeDecimal (price.units.natAbs / 10 ^ price.places)) fraction hT
    (fun c => mem_localeDecimal) hfraction (by rw [filter_localeDecimal]; exact decimal_ne_nil _)
    (groupedInThrees_localeDecimal _) (decide (price.units < 0)) true
  rw [← htext, filter_localeDecimal] at hread
  have hagain : printedValue ⟨decide (price.units < 0), decimal (price.units.natAbs / 10 ^ price.places), fraction⟩ =
      price.value := by
    rw [printedValue, hsame, price.value_eq]
  refine ⟨⟨price.cents, _, _, _⟩, parseUnitPrice_iff_value.2
    ⟨_, hread, hone, hthree, rfl, rfl, by rw [hagain, ← hvalue, hcents], rfl⟩, compareUnitPrices_eq_zero.2 ?_⟩
  rw [← hagain, ← unitsOf_eq]
  rfl

end

/-! ## Number cells -/

/-- The number a cell's digits and exponent say. -/
def NumberCell.value (cell : NumberCell) : ℚ :=
  (if cell.negative then -1 else 1) *
    (digitsOf (cell.whole ++ cell.fraction) * (10 : ℚ) ^ (cell.exponent - cell.fraction.length))

/-- The number that the text of a number cell denotes. -/
def denoted (text : Text) : Option ℚ := (numberCell (trim text)).map NumberCell.value

/-- The minus sign of a number cell, and what follows. -/
def cellSign (text : Text) : Bool × Text :=
  match text with
  | '-' :: rest => (true, rest)
  | _ => (false, text)

/-- The digits after the point of a number cell, and what follows. -/
def cellFraction (rest : Text) : Text × Text :=
  match rest with
  | '.' :: after => (after.takeWhile Char.isDigit, after.dropWhile Char.isDigit)
  | rest => ([], rest)

theorem numberCell_eq (text : Text) : numberCell text =
    if (cellSign text).2.takeWhile Char.isDigit = [] then none
    else (cellExponent (cellFraction ((cellSign text).2.dropWhile Char.isDigit)).2).map fun exponent =>
      ⟨(cellSign text).1, (cellSign text).2.takeWhile Char.isDigit,
        (cellFraction ((cellSign text).2.dropWhile Char.isDigit)).1, exponent⟩ := by
  rfl

theorem numberCell_digits {text : Text} {cell : NumberCell} (h : numberCell text = some cell) :
    cell.whole ≠ [] ∧ (∀ c ∈ cell.whole, c.isDigit = true) ∧ ∀ c ∈ cell.fraction, c.isDigit = true := by
  rw [numberCell_eq] at h
  split at h
  case isTrue => cases h
  case isFalse hne =>
    obtain ⟨exponent, -, rfl⟩ := Option.map_eq_some_iff.1 h
    refine ⟨hne, fun c hc => List.mem_takeWhile_imp hc, ?_⟩
    dsimp only
    unfold cellFraction
    split
    · exact fun c hc => List.mem_takeWhile_imp hc
    · exact fun _ hc => absurd hc List.not_mem_nil

/-- Digits, a point and digits are a number cell. -/
theorem numberCell_plain {whole fraction : Text} (hne : whole ≠ []) (hwhole : ∀ c ∈ whole, c.isDigit = true)
    (hfraction : ∀ c ∈ fraction, c.isDigit = true) (negative : Bool) :
    numberCell (signText negative false ++ (whole ++ '.' :: fraction)) = some ⟨negative, whole, fraction, 0⟩ := by
  have hsign : cellSign (signText negative false ++ (whole ++ '.' :: fraction)) =
      (negative, whole ++ '.' :: fraction) := by
    cases negative with
    | true => rfl
    | false =>
      obtain ⟨c, rest, rfl⟩ := List.exists_cons_of_ne_nil hne
      unfold cellSign
      split
      case h_1 after hafter =>
        have hdash : c = '-' := (List.cons.inj hafter).1
        rw [hdash] at hwhole
        exact absurd (hwhole '-' List.mem_cons_self) (by decide)
      case h_2 => rfl
  have htake : (whole ++ '.' :: fraction).takeWhile Char.isDigit = whole := by
    rw [List.takeWhile_append_of_pos hwhole, List.takeWhile_cons_of_neg (by decide), List.append_nil]
  have hdrop : (whole ++ '.' :: fraction).dropWhile Char.isDigit = '.' :: fraction := by
    rw [List.dropWhile_append_of_pos hwhole, List.dropWhile_cons_of_neg (by decide)]
  have hafter : cellFraction ('.' :: fraction) = (fraction, []) := by
    change (fraction.takeWhile Char.isDigit, fraction.dropWhile Char.isDigit) = (fraction, [])
    rw [List.takeWhile_eq_self_iff.2 hfraction, List.dropWhile_eq_nil_iff.2 hfraction]
  rw [numberCell_eq, hsign]
  dsimp only
  rw [htake, hdrop, hafter, if_neg hne]
  rfl

/-- Moving the point by the exponent leaves the number. -/
theorem movePoint_value (cell : NumberCell) : decimalValue (movePoint cell).1 (movePoint cell).2 =
    digitsOf (cell.whole ++ cell.fraction) * (10 : ℚ) ^ (cell.exponent - cell.fraction.length) := by
  obtain ⟨negative, whole, fraction, exponent⟩ := cell
  unfold movePoint
  dsimp only
  have hzeros : ∀ k, ∀ c ∈ List.replicate k '0', c = '0' := fun k c hc => (List.mem_replicate.1 hc).2
  have hdigits : digitsOf (List.replicate (-((whole.length : Int) + exponent)).toNat '0' ++ (whole ++ fraction)) =
      digitsOf (whole ++ fraction) := by
    rw [digitsOf_append, digitsOf_zeros (hzeros _), Nat.mul_zero, Nat.zero_add]
  have hlength : (List.replicate (-((whole.length : Int) + exponent)).toNat '0' ++ (whole ++ fraction)).length =
      (-((whole.length : Int) + exponent)).toNat + (whole.length + fraction.length) := by
    rw [List.length_append, List.length_replicate, List.length_append]
  generalize List.replicate (-((whole.length : Int) + exponent)).toNat '0' ++ (whole ++ fraction) = digits at *
  have hpow : (10 : ℚ) ^ (((whole.length : Int) + exponent).toNat - digits.length) /
      10 ^ (digits ++ List.replicate (((whole.length : Int) + exponent).toNat - digits.length) '0' |>.drop
        ((whole.length : Int) + exponent).toNat).length = (10 : ℚ) ^ (exponent - fraction.length) := by
    rw [← zpow_natCast, ← zpow_natCast, ← zpow_sub₀ (by norm_num), List.length_drop, List.length_append,
      List.length_replicate]
    congr 1
    omega
  rw [decimalValue, List.take_append_drop, digitsOf_append, digitsOf_zeros (hzeros _), hdigits, List.length_replicate,
    ← hpow]
  push_cast
  ring

theorem trimZeros_digits {whole : Text} (h : ∀ c ∈ whole, c.isDigit = true) :
    trimZeros whole ≠ [] ∧ (∀ c ∈ trimZeros whole, c.isDigit = true) ∧ digitsOf (trimZeros whole) = digitsOf whole := by
  have hzeros : ∀ c ∈ whole.takeWhile (· = '0'), c = '0' := fun c hc => by simpa using List.mem_takeWhile_imp hc
  have hdigits : digitsOf (whole.dropWhile (· = '0')) = digitsOf whole := by
    conv_rhs => rw [← List.takeWhile_append_dropWhile (p := fun c => decide (c = '0')) (l := whole), digitsOf_append,
      digitsOf_zeros hzeros, Nat.mul_zero, Nat.zero_add]
  unfold trimZeros
  dsimp only
  by_cases hnil : whole.dropWhile (· = '0') = []
  · rw [if_pos hnil, ← hdigits, hnil]
    exact ⟨by simp, by simp, by decide⟩
  · rw [if_neg hnil]
    exact ⟨hnil, fun c hc => h c ((List.dropWhile_sublist _).subset hc), hdigits⟩

theorem movePoint_digits {cell : NumberCell} (hwhole : ∀ c ∈ cell.whole, c.isDigit = true)
    (hfraction : ∀ c ∈ cell.fraction, c.isDigit = true) :
    (∀ c ∈ (movePoint cell).1, c.isDigit = true) ∧ ∀ c ∈ (movePoint cell).2, c.isDigit = true := by
  have hall : ∀ c ∈ (movePoint cell).1 ++ (movePoint cell).2, c.isDigit = true := by
    intro c hc
    unfold movePoint at hc
    dsimp only at hc
    rw [List.take_append_drop] at hc
    simp only [List.mem_append, List.mem_replicate] at hc
    rcases hc with (⟨-, rfl⟩ | hc | hc) | ⟨-, rfl⟩
    · decide
    · exact hwhole c hc
    · exact hfraction c hc
    · decide
  rw [List.forall_mem_append] at hall
  exact hall

/-- A sign before digits that are all zero says nothing. -/
theorem signed_decimalValue {whole fraction : Text} (hwhole : ∀ c ∈ whole, c.isDigit = true)
    (hfraction : ∀ c ∈ fraction, c.isDigit = true) (negative : Bool) :
    (if negative && (whole ++ fraction).any fun c => '1' ≤ c && c ≤ '9' then -1 else 1) * decimalValue whole fraction =
      (if negative then -1 else 1) * decimalValue whole fraction := by
  by_cases hany : ((whole ++ fraction).any fun c => '1' ≤ c && c ≤ '9') = true
  · rw [hany, Bool.and_true]
  · have hzeros : ∀ c ∈ whole ++ fraction, c = '0' := by
      intro c hc
      have hdigit : c.isDigit = true := (List.mem_append.1 hc).elim (hwhole c) (hfraction c)
      have hnone : ¬ ('1' ≤ c ∧ c ≤ '9') := fun h => hany (List.any_eq_true.2 ⟨c, hc, by simp [h.1, h.2]⟩)
      have hrange : 48 ≤ c.toNat ∧ c.toNat ≤ 57 := by simpa [Char.isDigit, UInt32.le_iff_toNat_le] using hdigit
      have hle : ¬ (49 ≤ c.toNat ∧ c.toNat ≤ 57) := by
        simpa [Char.le_def, UInt32.le_iff_toNat_le] using hnone
      exact Char.toNat_inj.1 (show c.toNat = 48 by omega)
    rw [decimalValue, digitsOf_zeros hzeros]
    simp

/-- What is written for a number cell is the number of the cell, to the cent. -/
theorem numberCellToMoneyText_value {text money : Text} (h : numberCellToMoneyText text = .ok money) :
    ∃ negative whole fraction, money = signText negative false ++ (whole ++ '.' :: fraction) ∧ whole ≠ [] ∧
      (∀ c ∈ whole, c.isDigit = true) ∧ (∀ c ∈ fraction, c.isDigit = true) ∧ fraction.length = 2 ∧
      denoted text = some ((if negative then -1 else 1) * decimalValue whole fraction) := by
  unfold numberCellToMoneyText at h
  cases hcell : numberCell (trim text) with
  | none =>
    rw [hcell] at h
    cases h
  | some cell =>
    rw [hcell] at h
    dsimp only at h
    obtain ⟨-, hwhole, hfraction⟩ := numberCell_digits hcell
    obtain ⟨hbefore, hafter⟩ := movePoint_digits hwhole hfraction
    have hvalue := movePoint_value cell
    generalize (movePoint cell).1 = before at *
    generalize (movePoint cell).2 = after at *
    split at h
    case isTrue => cases h
    case isFalse =>
      split at h
      case isTrue => cases h
      case isFalse hzeros =>
        obtain rfl := Except.ok.inj h
        have hpad : ∀ k, ∀ c ∈ List.replicate k '0', c = '0' := fun k c hc => (List.mem_replicate.1 hc).2
        have hcents : ∀ c ∈ after.take 2 ++ List.replicate (2 - (after.take 2).length) '0', c.isDigit = true := by
          intro c hc
          rcases List.mem_append.1 hc with hc | hc
          · exact hafter c (List.mem_of_mem_take hc)
          · rw [hpad _ c hc]
            decide
        obtain ⟨hne, htrimmed, hsame⟩ := trimZeros_digits hbefore
        have hafterZeros : ∀ c ∈ after.drop 2, c = '0' := by
          rw [not_not, List.all_eq_true] at hzeros
          exact fun c hc => by simpa using hzeros c hc
        have hdecimal : decimalValue (trimZeros before) (after.take 2 ++ List.replicate (2 - (after.take 2).length) '0') =
            decimalValue before after := by
          rw [decimalValue_zeros _ _ (hpad _), decimalValue_take _ hafterZeros, decimalValue_add, decimalValue_add, hsame]
        have hlength : (after.take 2 ++ List.replicate (2 - (after.take 2).length) '0').length = 2 := by
          rw [List.length_append, List.length_replicate, List.length_take]
          omega
        generalize after.take 2 ++ List.replicate (2 - (after.take 2).length) '0' = cents at *
        refine ⟨cell.negative && (trimZeros before ++ cents).any fun c => '1' ≤ c && c ≤ '9', trimZeros before, cents,
          ?_, hne, htrimmed, hcents, hlength, ?_⟩
        · simp [signText]
        · rw [signed_decimalValue htrimmed hcents, hdecimal, hvalue, denoted, hcell]
          rfl

section
variable {T : CaseTables} {text : Text}

theorem magnitude_outOfRange (printed : PrintedNumber) {fraction : Text}
    (hrange : maxSafe < digitsOf (printed.whole ++ fraction)) :
    (match numberOf (digitsOf ((if printed.whole = [] then "0".toList else printed.whole) ++ fraction)) with
      | none => (.error (.printedOutOfRange text) : Except MoneyError Cents)
      | some magnitude =>
        if (magnitude : Int) ≤ maxSafe then cents (if printed.negative then -magnitude else magnitude)
        else .error (.printedOutOfRange text)) = .error (.printedOutOfRange text) := by
  rw [digitsOf_whole]
  cases hnumber : numberOf (digitsOf (printed.whole ++ fraction)) with
  | top => rfl
  | coe magnitude =>
    dsimp only
    refine if_neg fun hle => ?_
    have := numberOf_safe.1 ⟨magnitude, hnumber, hle⟩
    omega

theorem parseMoneyToCents_outOfRange {printed : PrintedNumber} (hprinted : readPrinted T text = .ok printed)
    (hfraction : AmountFraction printed.fraction) (hrange : maxSafe < digitsOf (centsDigits printed)) :
    parseMoneyToCents T text = .error (.printedOutOfRange text) := by
  unfold parseMoneyToCents
  rw [hprinted]
  unfold centsDigits at hrange
  by_cases hnone : printed.fraction = []
  · rw [if_pos hnone] at hrange
    simp only [hnone, if_pos, bind, Except.bind, pure, Except.pure]
    exact magnitude_outOfRange printed hrange
  · obtain ⟨htwo, hthree, hzeros⟩ := hfraction.resolve_left hnone
    rw [if_neg hnone] at hrange
    simp only [if_neg hnone, bind, Except.bind, centsOfFraction_ok.2 ⟨htwo, hthree, hzeros, rfl⟩]
    exact magnitude_outOfRange printed hrange

/-- A number cell's money text denotes the cell's number, and is parsed as its cents where they are in range. -/
theorem numberCellToMoneyText_parses (hT : UpperCase T) {money : Text} (h : numberCellToMoneyText text = .ok money) :
    ∃ v, denoted text = some v ∧ denoted money = some v ∧
      ((∃ amount, parseMoneyToCents T money = .ok amount ∧ (amount.val : ℚ) = v * 100) ∨
        maxSafe < |v * 100| ∧ parseMoneyToCents T money = .error (.printedOutOfRange money)) := by
  obtain ⟨negative, whole, fraction, rfl, hne, hwhole, hfraction, hlength, hvalue⟩ := numberCellToMoneyText_value h
  have hread := readPrinted_written hT (fun c hc => .inl (hwhole c hc)) hfraction
    (by rwa [filter_digits hwhole]) (groupedInThrees_digits hwhole) negative false
  rw [filter_digits hwhole] at hread
  have hplaces : AmountFraction fraction := .inr ⟨by omega, by omega, by simp [List.drop_of_length_le hlength.le]⟩
  have hcents := @centsDigits_eq ⟨negative, whole, fraction⟩ hplaces
  have hvalue' : (if negative then -1 else 1) * decimalValue whole fraction * 100 =
      ((if negative then -1 else 1) * digitsOf (centsDigits ⟨negative, whole, fraction⟩) : ℚ) := by
    rw [hcents, mul_assoc]
    rfl
  refine ⟨_, hvalue, ?_, ?_⟩
  · have htrim : trim (signText negative false ++ (whole ++ '.' :: fraction)) =
        signText negative false ++ (whole ++ '.' :: fraction) := by
      refine trimmed_of_isSpace fun c hc => ?_
      rcases List.mem_append.1 hc with hc | hc
      · rcases mem_signText hc with rfl | rfl <;> decide
      · refine (isNumeral_plain (isNumeral_of_amountShape (amountShape_written (fun c hc => .inl (hwhole c hc)) hfraction)
          c hc)).2.2.1
    rw [denoted, htrim, numberCell_plain hne hwhole hfraction, Option.map_some, NumberCell.value, decimalValue,
      zero_sub, zpow_neg, zpow_natCast]
    rfl
  · by_cases hrange : maxSafe < digitsOf (centsDigits ⟨negative, whole, fraction⟩)
    · refine .inr ⟨?_, parseMoneyToCents_outOfRange hread hplaces hrange⟩
      rw [hvalue', abs_mul, Nat.abs_cast]
      have hone : |(if negative then -1 else 1 : ℚ)| = 1 := by
        cases negative <;> simp
      rw [hone, one_mul]
      exact_mod_cast hrange
    · left
      rw [not_lt] at hrange
      refine ⟨⟨(if negative then -1 else 1) * digitsOf (centsDigits ⟨negative, whole, fraction⟩), ?_, ?_⟩,
        parseMoneyToCents_iff_value.2 ⟨_, hread, hplaces, ?_⟩, ?_⟩
      · split <;> omega
      · split <;> omega
      · rw [printedValue]
        dsimp only
        rw [hvalue']
        push_cast
        rfl
      · rw [hvalue']
        push_cast
        rfl

end

end Recouple
