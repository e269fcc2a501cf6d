import Recouple.Lib.Json
import Recouple.Lib.KeyedFold

/-!
# Money: `packages/core-domain/src/money.ts`

Integer cents (`cents`, lines 18-26), the checked sums (32-42) and `formatCents` (436-442). Every
amount that exists is inside the safe-integer range: the range is part of the type, so a sum that
leaves it is an error and never a value.

`addCents` and `subCents` add first and check after, on doubles: the sum the check sees is already
rounded. `addCents_ok` and `subCents_ok` say that rounding hides nothing.
-/

namespace Recouple
open Js

/-- `Cents`: an integer no larger than `Number.MAX_SAFE_INTEGER` either way. -/
@[ext] structure Cents where
  val : Int
  lower : -maxSafe ≤ val
  upper : val ≤ maxSafe
deriving DecidableEq

/-- Every `MoneyError` the functions modelled here throw. -/
inductive MoneyError
  /-- `cents`: the value is an integer, but not a safe one. -/
  | outOfRange (value : Int)
  /-- `readPrinted`: nothing but white space. -/
  | emptyText
  /-- `readPrinted`: no number is left once the markers are gone. -/
  | unreadable (original : Text)
  /-- `readPrinted`: a comma that does not stand between groups of three. -/
  | ambiguousSeparators (original : Text)
  /-- `centsOfFraction`: fewer than two digits after the point. -/
  | tooFewPlaces (original : Text) (places : Nat)
  /-- `centsOfFraction`: a digit past the cents that is not `0`. -/
  | fractionOfACent (original : Text) (places : Nat)
  /-- `centsOfFraction`: three digits after the point. -/
  | thousandsGroup (original : Text)
  /-- `parseMoneyToCents`: the printed amount is no safe integer. -/
  | printedOutOfRange (original : Text)
deriving DecidableEq

/-- `MoneyError.message`. -/
def MoneyError.message : MoneyError → Text
  | .outOfRange value => "money out of safe integer range: ".toList ++ decimalInt value
  | .emptyText => "cannot parse money from an empty string"
  | .unreadable original => "cannot parse money from ".toList ++ quote original
  | .ambiguousSeparators original => "ambiguous thousands separators in ".toList ++ quote original
  | .tooFewPlaces original places =>
    "expected two decimal places in ".toList ++ quote original ++ ", got ".toList ++ decimal places
  | .fractionOfACent original places =>
    "expected two decimal places in ".toList ++ quote original ++ ", got ".toList ++ decimal places ++
      ": a digit past the cents that is not 0 is a fraction of a cent, which is not rounded".toList
  | .thousandsGroup original =>
    "expected two decimal places in ".toList ++ quote original ++
      ", got 3: three digits after a point could be a thousands group".toList
  | .printedOutOfRange original => "money out of safe integer range: ".toList ++ quote original

/-- `cents(value)` on an integer value. (No caller modelled here can pass a fraction.) -/
def cents (value : Int) : Except MoneyError Cents :=
  if h : -maxSafe ≤ value ∧ value ≤ maxSafe then .ok ⟨value, h.1, h.2⟩ else .error (.outOfRange value)

/-- `ZERO`. -/
def ZERO : Cents := ⟨0, by decide, by decide⟩

instance : Inhabited Cents := ⟨ZERO⟩

/-- `addCents`: the sum of two doubles, then the check. -/
def addCents (a b : Cents) : Except MoneyError Cents := cents (toDoubleInt (a.val + b.val))

/-- `subCents`. -/
def subCents (a b : Cents) : Except MoneyError Cents := cents (toDoubleInt (a.val - b.val))

theorem cents_ok {v : Int} {c : Cents} : cents v = .ok c ↔ c.val = v := by
  unfold cents
  split
  · rename_i h
    rw [Except.ok.injEq, Cents.ext_iff]
    exact eq_comm
  · rename_i h
    constructor
    · intro e; cases e
    · rintro rfl; exact absurd ⟨c.lower, c.upper⟩ h

/-- A sum out of range is still out of range once it is rounded to a double. -/
theorem cents_toDoubleInt_ok {v : Int} {c : Cents} :
    cents (toDoubleInt v) = .ok c ↔ c.val = v := by
  rw [cents_ok]
  have hl := c.lower
  have hu := c.upper
  constructor
  · intro h
    by_cases hv : -maxSafe ≤ v ∧ v ≤ maxSafe
    · rw [h, toDoubleInt_of_safe hv.1 hv.2]
    · have := toDoubleInt_of_unsafe hv
      omega
  · rintro rfl
    exact (toDoubleInt_of_safe hl hu).symm

theorem addCents_ok {a b c : Cents} : addCents a b = .ok c ↔ c.val = a.val + b.val :=
  cents_toDoubleInt_ok

theorem subCents_ok {a b c : Cents} : subCents a b = .ok c ↔ c.val = a.val - b.val :=
  cents_toDoubleInt_ok

/-- The amount is one `Cents` can hold. -/
def InRange (v : Int) : Prop := -maxSafe ≤ v ∧ v ≤ maxSafe

instance (v : Int) : Decidable (InRange v) := inferInstanceAs (Decidable (_ ∧ _))

theorem Cents.inRange (c : Cents) : InRange c.val := ⟨c.lower, c.upper⟩

theorem addCents_returns {a b : Cents} : (∃ c, addCents a b = .ok c) ↔ InRange (a.val + b.val) := by
  constructor
  · rintro ⟨c, h⟩; rw [← addCents_ok.1 h]; exact c.inRange
  · intro h; exact ⟨⟨_, h.1, h.2⟩, addCents_ok.2 rfl⟩

theorem subCents_returns {a b : Cents} : (∃ c, subCents a b = .ok c) ↔ InRange (a.val - b.val) := by
  constructor
  · rintro ⟨c, h⟩; rw [← subCents_ok.1 h]; exact c.inRange
  · intro h; exact ⟨⟨_, h.1, h.2⟩, subCents_ok.2 rfl⟩

/-! ## Sums -/

/-- `sumCents`. -/
def sumCents (values : List Cents) : Except MoneyError Cents := values.foldlM addCents ZERO

theorem foldlM_addCents_ok {c : Cents} : ∀ {values : List Cents} {acc : Cents}, values.foldlM addCents acc = .ok c ↔
    (∀ k, InRange (acc.val + ((values.take k).map (·.val)).sum)) ∧ c.val = acc.val + (values.map (·.val)).sum
  | [], acc => by
    have hc : (.ok acc : Except MoneyError Cents) = .ok c ↔ c.val = acc.val := by
      constructor
      · intro h; cases h; rfl
      · intro h
        cases acc; cases c
        simp only at h
        subst h
        rfl
    rw [List.foldlM_nil, show (pure acc : Except MoneyError Cents) = .ok acc from rfl, hc]
    simp [acc.inRange]
  | v :: values, acc => by
    rw [List.foldlM_cons, KeyedFold.bind_ok]
    constructor
    · rintro ⟨a, ha, h⟩
      rw [addCents_ok] at ha
      obtain ⟨hrange, hsum⟩ := foldlM_addCents_ok.1 h
      refine ⟨fun k => ?_, by simp only [hsum, ha, List.map_cons, List.sum_cons]; omega⟩
      cases k with
      | zero => simpa using acc.inRange
      | succ k =>
        have := hrange k
        rw [ha] at this
        simpa [Int.add_assoc] using this
    · rintro ⟨hrange, hsum⟩
      have hfirst := hrange 1
      simp only [List.take_succ_cons, List.take_zero, List.map_cons, List.map_nil, List.sum_cons, List.sum_nil,
        Int.add_zero] at hfirst
      obtain ⟨a, ha⟩ := addCents_returns.2 hfirst
      refine ⟨a, ha, foldlM_addCents_ok.2 ⟨fun k => ?_, ?_⟩⟩
      · have := hrange (k + 1)
        rw [addCents_ok] at ha
        rw [ha]
        simpa [Int.add_assoc] using this
      · rw [addCents_ok] at ha
        rw [hsum, ha, List.map_cons, List.sum_cons, Int.add_assoc]

theorem sumCents_ok {values : List Cents} {c : Cents} : sumCents values = .ok c ↔
    (∀ k, InRange ((values.take k).map (·.val)).sum) ∧ c.val = (values.map (·.val)).sum := by
  have hzero : ZERO.val = 0 := rfl
  rw [sumCents, foldlM_addCents_ok]
  simp only [hzero, Int.zero_add]

theorem sumCents_returns {values : List Cents} :
    (∃ c, sumCents values = .ok c) ↔ ∀ k, InRange ((values.take k).map (·.val)).sum := by
  constructor
  · rintro ⟨c, hc⟩
    exact (sumCents_ok.1 hc).1
  · intro h
    have htotal := h values.length
    rw [List.take_length] at htotal
    exact ⟨⟨_, htotal.1, htotal.2⟩, sumCents_ok.2 ⟨h, rfl⟩⟩

/-- `String(n).padStart(2, '0')`. -/
def padTwo (n : Nat) : Text := List.replicate (2 - (decimal n).length) '0' ++ decimal n

/-- `formatCents`. -/
def formatCents (amount : Cents) : Text :=
  (if amount.val < 0 then ['-'] else []) ++
    '$' :: localeDecimal (amount.val.natAbs / 100) ++ '.' :: padTwo (amount.val.natAbs % 100)

example : formatCents ⟨-123456789, by decide, by decide⟩ = "-$1,234,567.89".toList := by decide

end Recouple
