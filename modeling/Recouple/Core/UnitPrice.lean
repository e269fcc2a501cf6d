import Recouple.Core.PrintedMoney
import Recouple.Lib.Rounding

/-!
# Prices per unit: `packages/core-domain/src/money.ts` (48-55, 278-437)

A unit price keeps the digits the page printed; only a line's total is rounded, once, to the cent. What is thrown is
its message. A `BigInt` is an `Int`, and `Number(v)` of one is `toDoubleInt v`.

`extendedCents_returns` and `shortageCentsAt_returns` say when a total can be computed.
-/

namespace Recouple
open Js

/-- `divRoundHalfUp`: half-up rounding away from zero. -/
def divRoundHalfUp (numerator : Int) (denominator : Nat) : Int :=
  let q : Int := ((numerator.natAbs * 2 + denominator) / (denominator * 2) : Nat)
  if numerator < 0 then -q else q

theorem divRoundHalfUp_eq (n : Int) {d : Nat} (hd : 0 < d) :
    divRoundHalfUp n d = Rounding.halfAway ((n : ℚ) / d) :=
  (Rounding.halfAway_div n hd).symm

/-- The printed price is `units / 10 ^ places` dollars. -/
structure UnitPrice where
  cents : Cents
  rounded : Bool
  units : Int
  places : Nat
deriving DecidableEq

/-- `centsFromBigInt` -/
def centsFromBigInt (value : Int) (source : Text) : Except MoneyError Cents :=
  match cents (toDoubleInt value) with
  | .ok amount => .ok amount
  | .error _ => .error (.printedOutOfRange source)

section
variable (T : CaseTables)

def parseUnitPrice (text : Text) : Except MoneyError UnitPrice := do
  let printed ← readPrinted T text
  if printed.fraction.length = 1 then .error (.tooFewPlaces text 1)
  -- `mayBeThousandsGroup`
  else if printed.fraction.length = 3 then .error (.thousandsGroup text)
  else do
    let places := printed.fraction.length
    let whole := if printed.whole = [] then "0".toList else printed.whole
    let magnitude : Int := Nat.ofDigitChars 10 (whole ++ printed.fraction) 0
    let units := if printed.negative then -magnitude else magnitude
    let amount ← centsFromBigInt (divRoundHalfUp (units * 100) (10 ^ places)) text
    .ok ⟨amount, units * 100 % 10 ^ places ≠ 0, units, places⟩

end

example : (parseUnitPrice asciiCase "$0.0125".toList).toOption.map (fun p => (p.cents.val, p.rounded, p.units, p.places)) =
    some (1, true, 125, 4) := by decide

/-- `String(n)` of a number that is an integer. -/
def printInt (n : Int) : Text := (if n < 0 then ['-'] else []) ++ showNumber (some n.natAbs)

def formatUnitPrice (price : UnitPrice) : Text :=
  let magnitude := price.units.natAbs
  let scale := 10 ^ price.places
  let digits := decimal (magnitude % scale)
  let padded := List.replicate (price.places - digits.length) '0' ++ digits
  let kept := padded.rdropWhile (· = '0')
  let cents := kept ++ List.replicate (2 - kept.length) '0'
  let fraction := if cents.length = 3 then cents ++ ['0'] else cents
  (if price.units < 0 then ['-'] else []) ++ '$' :: localeDecimal (magnitude / scale) ++ '.' :: fraction

example : (parseUnitPrice asciiCase "$0.01250".toList).toOption.map formatUnitPrice = some "$0.0125".toList := by decide

/-- A quantity times a printed unit price, to the cent. -/
def extended (quantity : Int) (price : UnitPrice) : Int :=
  divRoundHalfUp (quantity * price.units * 100) (10 ^ price.places)

def extendedCents (quantity : Int) (price : UnitPrice) : Except Text Cents :=
  if ¬ InRange quantity then .error "a quantity must be an integer".toList
  else match cents (toDoubleInt (extended quantity price)) with
    | .ok total => .ok total
    | .error _ => .error (printInt quantity ++ " at ".toList ++ formatUnitPrice price ++
        " is out of the safe integer range of cents".toList)

/-- Whether an amount is within a cent of a quantity at the printed price. -/
def withinACentAt (quantity : Int) (price : UnitPrice) (amount : Cents) : Bool :=
  InRange quantity && (amount.val * 10 ^ price.places - quantity * price.units * 100).natAbs < 10 ^ price.places

/-- The price of what was not received. (Quantities are integers here.) -/
def shortageCentsAt (qtyInvoiced qtyReceived : Int) (price : UnitPrice) : Except Text Cents :=
  if qtyInvoiced < 0 ∨ qtyReceived < 0 then .error "quantities cannot be negative".toList
  else if qtyInvoiced < qtyReceived then
    .error ("received (".toList ++ printInt qtyReceived ++ ") exceeds invoiced (".toList ++ printInt qtyInvoiced ++
      "): this is an overage, not a shortage".toList)
  else if price.units < 0 then .error "unit cost cannot be negative".toList
  else extendedCents (toDoubleInt (qtyInvoiced - qtyReceived)) price

/-- How many whole units an amount buys at a printed price. -/
def unitsAtPrice (amount : Cents) (price : UnitPrice) : Option Int :=
  let perUnit := price.units * 100
  let numerator := amount.val * 10 ^ price.places
  if perUnit = 0 ∨ numerator % perUnit ≠ 0 then none
  else
    let units := toDoubleInt (numerator / perUnit)
    if InRange units then some units else none

def compareUnitPrices (a b : UnitPrice) : Int :=
  let left := a.units * 10 ^ b.places
  let right := b.units * 10 ^ a.places
  if left = right then 0 else if left < right then -1 else 1

/-! ## When a total can be computed -/

theorem extendedCents_ok {quantity : Int} {price : UnitPrice} {total : Cents} :
    extendedCents quantity price = .ok total ↔ InRange quantity ∧ total.val = extended quantity price := by
  unfold extendedCents
  split
  case isTrue h =>
    constructor
    · intro e
      cases e
    · exact fun e => absurd e.1 h
  case isFalse h =>
    rw [and_iff_right (not_not.1 h), ← cents_toDoubleInt_ok]
    cases cents (toDoubleInt (extended quantity price)) with
    | ok amount => exact ⟨fun e => by rw [Except.ok.inj e], fun e => by rw [Except.ok.inj e]⟩
    | error e => simp

theorem extendedCents_returns {quantity : Int} {price : UnitPrice} :
    (∃ total, extendedCents quantity price = .ok total) ↔ InRange quantity ∧ InRange (extended quantity price) := by
  simp only [extendedCents_ok]
  constructor
  · rintro ⟨total, hquantity, htotal⟩
    exact ⟨hquantity, htotal ▸ total.inRange⟩
  · rintro ⟨hquantity, htotal⟩
    exact ⟨⟨_, htotal.1, htotal.2⟩, hquantity, rfl⟩

theorem shortageCentsAt_returns {qtyInvoiced qtyReceived : Int} {price : UnitPrice} (hinvoiced : InRange qtyInvoiced)
    (hle : qtyReceived ≤ qtyInvoiced) (hprice : 0 ≤ price.units) :
    (∃ total, shortageCentsAt qtyInvoiced qtyReceived price = .ok total) ↔
      0 ≤ qtyReceived ∧ InRange (extended (qtyInvoiced - qtyReceived) price) := by
  unfold shortageCentsAt
  by_cases hnegative : qtyInvoiced < 0 ∨ qtyReceived < 0
  · rw [if_pos hnegative]
    constructor
    · rintro ⟨total, h⟩
      cases h
    · rintro ⟨h, -⟩
      omega
  · have hrange : InRange (qtyInvoiced - qtyReceived) := by unfold InRange at *; omega
    rw [if_neg hnegative, if_neg (by omega), if_neg (by omega), toDoubleInt_of_safe hrange.1 hrange.2,
      extendedCents_returns, and_iff_right hrange]
    exact ⟨fun h => ⟨by omega, h⟩, fun h => h.2⟩

end Recouple
