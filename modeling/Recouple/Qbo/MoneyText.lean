import Recouple.Core.MoneyRoundTrips

/-!
# Amounts as QuickBooks is sent them: `packages/qbo/src/money.ts` (68-82)

* **`money_round_trips`**: the parsers of money and its writers agree, at every magnitude and sign.
-/

namespace Recouple.Qbo
open Js

/-- The digits of a number of cents, with a point before the last two. -/
def hundredths (n : Nat) : Text :=
  let digits := padded 3 n
  digits.take (digits.length - 2) ++ '.' :: digits.drop (digits.length - 2)

/-- Digits only. (What is no safe integer is no `Cents`.) -/
def centsToQboAmount (amount : Cents) : Text :=
  (if amount.val < 0 then ['-'] else []) ++ hundredths amount.val.natAbs

example : centsToQboAmount ⟨-5, by decide, by decide⟩ = "-0.05".toList := by decide

/-- Dollars, a point and two digits of cents. -/
theorem hundredths_eq (n : Nat) : ∃ whole fraction, hundredths n = whole ++ '.' :: fraction ∧ whole ≠ [] ∧
    (∀ c ∈ whole, c.isDigit = true) ∧ (∀ c ∈ fraction, c.isDigit = true) ∧ fraction.length = 2 ∧
    digitsOf whole = n / 100 ∧ digitsOf fraction = n % 100 := by
  have hdigit : ∀ c ∈ padded 3 n, c.isDigit = true := fun c => isDigit_of_mem_padded
  have hvalue := digitsOf_padded 3 n
  have hlength : 3 ≤ (padded 3 n).length := by
    rw [padded, List.length_append, List.length_replicate]
    omega
  unfold hundredths
  generalize padded 3 n = digits at *
  have hfraction : ∀ c ∈ digits.drop (digits.length - 2), c.isDigit = true := fun c hc =>
    hdigit c (List.mem_of_mem_drop hc)
  have htwo : (digits.drop (digits.length - 2)).length = 2 := by
    rw [List.length_drop]
    omega
  have hlt := digitsOf_lt hfraction
  have happend := digitsOf_append (digits.take (digits.length - 2)) (digits.drop (digits.length - 2))
  rw [List.take_append_drop, hvalue, htwo] at happend
  rw [htwo] at hlt
  refine ⟨_, _, rfl, ?_, fun c hc => hdigit c (List.mem_of_mem_take hc), hfraction, htwo, by omega, by omega⟩
  rw [← List.length_pos_iff, List.length_take]
  omega

section
variable {T : CaseTables}

theorem centsToQboAmount_parses (hT : UpperCase T) (amount : Cents) :
    parseMoneyToCents T (centsToQboAmount amount) = .ok amount := by
  obtain ⟨whole, fraction, htext, hne, hwhole, hfraction, hlength, hdollars, hcents⟩ := hundredths_eq amount.val.natAbs
  have hsign : centsToQboAmount amount = signText (decide (amount.val < 0)) false ++ (whole ++ '.' :: fraction) := by
    rw [centsToQboAmount, htext]
    simp [signText]
  rw [hsign]
  refine parseMoneyToCents_written hT (fun c hc => .inl (hwhole c hc)) hfraction ?_ (groupedInThrees_digits hwhole)
    hlength false ?_
  · rwa [filter_digits hwhole]
  · rw [filter_digits hwhole]
    exact cents_value amount hdollars hcents hlength

/-- An amount is a unit price that was not rounded; what the writers write is read as what was written; and the text
made of a number cell denotes the cell's number. -/
theorem money_round_trips (hT : UpperCase T) :
    (∀ text amount, parseMoneyToCents T text = .ok amount ↔
      ∃ price, parseUnitPrice T text = .ok price ∧ price.rounded = false ∧ price.cents = amount) ∧
    (∀ amount, parseMoneyToCents T (formatCents amount) = .ok amount ∧
      parseMoneyToCents T (centsToQboAmount amount) = .ok amount) ∧
    (∀ text price, parseUnitPrice T text = .ok price →
      ∃ again, parseUnitPrice T (formatUnitPrice price) = .ok again ∧ compareUnitPrices again price = 0) ∧
    ∀ text money, numberCellToMoneyText text = .ok money → ∃ v, denoted text = some v ∧ denoted money = some v ∧
      ((∃ amount, parseMoneyToCents T money = .ok amount ∧ (amount.val : ℚ) = v * 100) ∨
        maxSafe < |v * 100| ∧ parseMoneyToCents T money = .error (.printedOutOfRange money)) :=
  ⟨fun _ _ => parseMoneyToCents_iff_exact, fun amount => ⟨formatCents_parses hT amount, centsToQboAmount_parses hT amount⟩,
    fun _ _ => formatUnitPrice_parses hT, fun _ _ => numberCellToMoneyText_parses hT⟩

/-- -$1,234,567.89 -/
def thousands : Cents := ⟨-123456789, by decide, by decide⟩

/-- $0.0125, to the cent. -/
def fineprice : UnitPrice := ⟨⟨1, by decide, by decide⟩, true, 125, 4⟩

/-- The round trips of a negative amount with separators, of a price of four places and of a cell with an exponent. -/
theorem thousands_round_trip :
    (∃ price, parseUnitPrice asciiCase "($1,234,567.89)".toList = .ok price ∧ price.rounded = false ∧
      price.cents = thousands) ∧
    (parseMoneyToCents asciiCase (formatCents thousands) = .ok thousands ∧
      parseMoneyToCents asciiCase (centsToQboAmount thousands) = .ok thousands) ∧
    (∃ again, parseUnitPrice asciiCase (formatUnitPrice fineprice) = .ok again ∧ compareUnitPrices again fineprice = 0) ∧
    ∃ v, denoted "-1.2345E3".toList = some v ∧ denoted "-1234.50".toList = some v ∧
      ((∃ amount, parseMoneyToCents asciiCase "-1234.50".toList = .ok amount ∧ (amount.val : ℚ) = v * 100) ∨
        maxSafe < |v * 100| ∧ parseMoneyToCents asciiCase "-1234.50".toList = .error (.printedOutOfRange "-1234.50".toList)) := by
  obtain ⟨hexact, hwritten, hprice, hcell⟩ := money_round_trips asciiCase_upperCase
  exact ⟨(hexact _ _).1 (by decide +kernel), hwritten thousands, hprice "$0.0125".toList fineprice (by decide +kernel),
    hcell _ _ (by decide +kernel)⟩

end

end Recouple.Qbo
