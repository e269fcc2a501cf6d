import Recouple.Extraction.ReconcileNotice
import Recouple.Lib.Rounding

/-!
# Line arithmetic: `packages/core-domain/src/money.ts` (345-420), `packages/extraction/src/reconcile.ts` (387-497)

| here | there |
| --- | --- |
| `exactCents` | the product that `extendedCents`, `withinACentAt` and `unitsAtPrice` keep in `BigInt` |
| `halfAway` | `divRoundHalfUp` |
| `contradiction` | the code of the finding at 448 |

* **`line_arithmetic`**: a total is the exact product rounded once; the units an amount buys cost exactly that amount; a
  rounded total is always within a cent; and a line is said to contradict itself only where its verdict is not
  `matches` and, its gap being a safe integer, the amount is neither rounding of the gap at the price.
* `unsafe_gap_contradicts`: a gap past the safe integers is never within a cent, so an amount that is its rounding is
  reported.
-/

namespace Recouple.Extraction
open Js KeyedFold Rounding

/-! ## Exact products -/

/-- A quantity at the printed price, in cents, before any rounding. -/
def exactCents (quantity : Int) (price : UnitPrice) : ℚ := quantity * (price.units / 10 ^ price.places) * 100

theorem exactCents_eq (quantity : Int) (price : UnitPrice) :
    exactCents quantity price = ((quantity * price.units * 100 : Int) : ℚ) / ((10 ^ price.places : Nat) : ℚ) := by
  unfold exactCents
  push_cast
  ring

theorem extended_eq (quantity : Int) (price : UnitPrice) :
    extended quantity price = halfAway (exactCents quantity price) := by
  rw [exactCents_eq, ← divRoundHalfUp_eq _ (by positivity)]
  rfl

theorem withinACentAt_iff {quantity : Int} {price : UnitPrice} {amount : Cents} :
    withinACentAt quantity price amount = true ↔
      InRange quantity ∧ |(amount.val : ℚ) - exactCents quantity price| < 1 := by
  have hpos : (0 : ℚ) < ((10 ^ price.places : Nat) : ℚ) := by positivity
  have hdifference : (amount.val : ℚ) - exactCents quantity price =
      ((amount.val * 10 ^ price.places - quantity * price.units * 100 : Int) : ℚ) / ((10 ^ price.places : Nat) : ℚ) := by
    rw [exactCents_eq, eq_div_iff hpos.ne', sub_mul, div_mul_cancel₀ _ hpos.ne']
    push_cast
    ring
  rw [hdifference, abs_div, abs_of_pos hpos, div_lt_one hpos, ← Int.cast_abs]
  unfold withinACentAt
  rw [Bool.and_eq_true, decide_eq_true_iff, decide_eq_true_iff, Int.abs_eq_natAbs, Int.cast_natCast, Nat.cast_lt]

/-- The rounded total is an amount within a cent. -/
theorem withinACentAt_extended {quantity : Int} {price : UnitPrice} {amount : Cents}
    (h : extendedCents quantity price = .ok amount) : withinACentAt quantity price amount = true := by
  obtain ⟨hquantity, hamount⟩ := extendedCents_ok.1 h
  rw [withinACentAt_iff, hamount, extended_eq]
  exact ⟨hquantity, abs_sub_halfAway_lt _⟩

theorem inRange_of_toDoubleInt {v : Int} (h : InRange (toDoubleInt v)) : toDoubleInt v = v := by
  by_cases hv : -maxSafe ≤ v ∧ v ≤ maxSafe
  · exact toDoubleInt_of_safe hv.1 hv.2
  · have := toDoubleInt_of_unsafe hv
    unfold InRange at h
    omega

theorem exactCents_unitsAtPrice {amount : Cents} {price : UnitPrice} {n : Int}
    (h : unitsAtPrice amount price = some n) : exactCents n price = amount.val := by
  unfold unitsAtPrice at h
  dsimp only at h
  split at h
  case isTrue => cases h
  case isFalse hexact =>
    split at h
    case isFalse => cases h
    case isTrue hsafe =>
      obtain rfl := Option.some.inj h
      rw [inRange_of_toDoubleInt hsafe]
      have hdivides : price.units * 100 ∣ amount.val * 10 ^ price.places :=
        Int.dvd_of_emod_eq_zero (not_not.1 fun e => hexact (.inr e))
      have hproduct := Int.ediv_mul_cancel hdivides
      rw [exactCents_eq, div_eq_iff (by positivity), mul_assoc, hproduct]
      push_cast
      rfl

/-! ## A line that contradicts itself -/

/-- `quantities_contradict_the_amount` -/
def contradiction : Text := "quantities_contradict_the_amount".toList

/-- None of the findings is the contradiction. -/
def Silent (findings : List Finding) : Prop := ∀ f ∈ findings, f.code ≠ contradiction

theorem silent_nil : Silent [] := fun _ h => absurd h List.not_mem_nil

theorem silent_append {a b : List Finding} (ha : Silent a) (hb : Silent b) : Silent (a ++ b) := by
  intro f hf
  rcases List.mem_append.1 hf with h | h
  · exact ha f h
  · exact hb f h

/-- A code that starts with another letter is another code. -/
theorem silent_single {code message : Text} {severity : FindingSeverity} {fieldPath : Option Text}
    (h : code.head? ≠ some 'q') : Silent [⟨code, severity, message, fieldPath⟩] := by
  intro g hg hcode
  obtain rfl := List.mem_singleton.1 hg
  exact h ((congrArg List.head? hcode).trans (by decide))

theorem silent_flatMap {α : Type} {l : List α} {g : α → List Finding} (h : ∀ a ∈ l, Silent (g a)) :
    Silent (l.flatMap g) := by
  intro f hf
  obtain ⟨a, ha, hmem⟩ := List.mem_flatMap.1 hf
  exact h a ha f hmem

section
variable {T : CaseTables}

theorem silent_money (field : Option Text) (path : Text) : Silent (money T field path).2 := by
  cases field with
  | none => exact silent_nil
  | some text =>
    cases hparse : parseMoneyToCents T text with
    | ok amount =>
      rw [show (money T (some text) path).2 = [] by simp [money, hparse]]
      exact silent_nil
    | error e =>
      simp only [money, hparse]
      exact silent_single (by decide)

theorem silent_unitPrice (field : Option Text) (path : Text) : Silent (unitPrice T field path).2 := by
  cases field with
  | none => exact silent_nil
  | some text =>
    cases hread : readUnitPrice T text with
    | ok price =>
      rw [show (unitPrice T (some text) path).2 = [] by simp [unitPrice, hread]]
      exact silent_nil
    | error e =>
      simp only [unitPrice, hread]
      exact silent_single (by decide)

theorem silent_checkTotal (lineSum claimedTotal : Option Cents) : Silent (checkTotal lineSum claimedTotal) := by
  unfold checkTotal
  split
  · split
    · exact silent_nil
    · exact silent_single (by decide)
  · exact silent_nil

theorem silent_checkInvoiceLine (invoice : List InvoiceLine) (index : Nat) (line : NoticeLine) :
    Silent (checkInvoiceLine T invoice index line) := by
  unfold checkInvoiceLine
  split
  · exact silent_nil
  · split
    · exact silent_single (by decide)
    · split
      · split
        · exact silent_nil
        · exact silent_single (by decide)
      · exact silent_nil

theorem silent_checkPurchaseOrderLine (po : List PurchaseOrderLine) (index : Nat) (line : NoticeLine) :
    Silent (checkPurchaseOrderLine T po index line) := by
  unfold checkPurchaseOrderLine
  split
  · exact silent_nil
  · split
    · exact silent_nil
    · refine silent_append (silent_append (silent_append (silent_unitPrice _ _) (silent_unitPrice _ _)) ?_) ?_
      · split
        · split
          · exact silent_nil
          · exact silent_single (by decide)
        · exact silent_nil
      · split
        · split
          · exact silent_nil
          · exact silent_single (by decide)
        · exact silent_nil

theorem silent_checkArithmetic {sku : Text} {index : Nat} {invoiced received : Quantity} {price : UnitPrice}
    {claimed : Option Cents} {out : Option Cents × LineVerdict × List Finding}
    (h : checkArithmetic sku index invoiced received price claimed = .ok out) : Silent out.2.2 := by
  unfold checkArithmetic at h
  split at h
  case isTrue =>
    obtain rfl := Except.ok.inj h
    exact silent_single (by decide)
  case isFalse =>
    obtain ⟨expected, -, h⟩ := bind_ok.1 h
    split at h
    · obtain rfl := Except.ok.inj h
      exact silent_nil
    · split at h
      · obtain rfl := Except.ok.inj h
        exact silent_nil
      · obtain rfl := Except.ok.inj h
        exact silent_single (by decide)

theorem shortageCentsAt_ok {qtyInvoiced qtyReceived : Int} {price : UnitPrice} {total : Cents}
    (h : shortageCentsAt qtyInvoiced qtyReceived price = .ok total) :
    extendedCents (toDoubleInt (qtyInvoiced - qtyReceived)) price = .ok total := by
  unfold shortageCentsAt at h
  split at h
  · cases h
  · split at h
    · cases h
    · split at h
      · cases h
      · exact h

/-- A line that agrees was deducted what its gap costs. -/
theorem checkArithmetic_agrees {sku : Text} {index : Nat} {invoiced received : Quantity} {price : UnitPrice}
    {claimed : Option Cents} {out : Option Cents × LineVerdict × List Finding}
    (h : checkArithmetic sku index invoiced received price claimed = .ok out) (hverdict : out.2.1 = .agrees) :
    ∃ amount, claimed = some amount ∧ received.val ≤ invoiced.val ∧
      extendedCents (toDoubleInt (invoiced.val - received.val)) price = .ok amount := by
  unfold checkArithmetic at h
  split at h
  case isTrue =>
    obtain rfl := Except.ok.inj h
    cases hverdict
  case isFalse hle =>
    obtain ⟨expected, hexpected, h⟩ := bind_ok.1 h
    cases claimed with
    | none =>
      obtain rfl := Except.ok.inj h
      cases hverdict
    | some claimed =>
      dsimp only at h
      split at h
      case isTrue hagrees =>
        subst hagrees
        exact ⟨expected, rfl, by omega, shortageCentsAt_ok hexpected⟩
      case isFalse =>
        obtain rfl := Except.ok.inj h
        cases hverdict

/-- What the line says its gap is. -/
def statedGap (invoiced received : Quantity) : Int := (toDoubleInt (invoiced.val - received.val)).natAbs

theorem statedGap_of_le {invoiced received : Quantity} (h : received.val ≤ invoiced.val) :
    statedGap invoiced received = toDoubleInt (invoiced.val - received.val) := by
  have hnonneg : 0 ≤ toDoubleInt (invoiced.val - received.val) := by
    unfold toDoubleInt
    rw [if_neg (by omega)]
    omega
  unfold statedGap
  omega

theorem statedGap_of_safe {invoiced received : Quantity} (h : InRange (invoiced.val - received.val)) :
    statedGap invoiced received = |invoiced.val - received.val| := by
  rw [statedGap, toDoubleInt_of_safe h.1 h.2, Int.abs_eq_natAbs]

/-- The only finding of the check names the line, and its amount is not within a cent of the gap. -/
theorem mem_checkQuantities {sku : Text} {index : Nat} {invoiced received : Quantity} {price : UnitPrice}
    {claimed : Cents} {f : Finding} (h : f ∈ checkQuantities sku index invoiced received price claimed) :
    f.fieldPath = some (linePath index) ∧
      withinACentAt (statedGap invoiced received) price claimed = false := by
  unfold checkQuantities at h
  dsimp only at h
  split at h
  · cases h
  · split at h
    · cases h
    · split at h
      case isTrue hboth =>
        obtain rfl := List.mem_singleton.1 h
        rw [Bool.and_eq_true, Bool.not_eq_true'] at hboth
        exact ⟨rfl, hboth.2⟩
      case isFalse => cases h

/-- A line whose quantities and amount cannot both be right: its verdict is not `matches` and, where its gap is a safe
integer, the amount is the gap's price rounded neither down nor up. -/
def Contradicted (T : CaseTables) (line : NoticeLine) (row : NoticeLineReconciliation) : Prop :=
  row.verdict ≠ .agrees ∧ ∃ invoiced received price claimed,
    line.qty_invoiced = some invoiced ∧ line.qty_received = some received ∧
    quietUnitPrice T line.unit_cost = some price ∧ row.claimedCents = some claimed ∧
    (InRange (invoiced.val - received.val) →
      claimed.val ≠ ⌊exactCents |invoiced.val - received.val| price⌋ ∧
      claimed.val ≠ ⌈exactCents |invoiced.val - received.val| price⌉)

theorem contradicted_of_checkQuantities {sku : Text} {index : Nat} {invoiced received : Quantity} {price : UnitPrice}
    {claimed : Cents} {f : Finding} {out : Option Cents × LineVerdict × List Finding}
    (hf : f ∈ checkQuantities sku index invoiced received price claimed)
    (hout : checkArithmetic sku index invoiced received price (some claimed) = .ok out) :
    out.2.1 ≠ .agrees ∧ (InRange (invoiced.val - received.val) →
      claimed.val ≠ ⌊exactCents |invoiced.val - received.val| price⌋ ∧
      claimed.val ≠ ⌈exactCents |invoiced.val - received.val| price⌉) := by
  obtain ⟨-, hfar⟩ := mem_checkQuantities hf
  constructor
  · intro hagrees
    obtain ⟨amount, hamount, hle, htotal⟩ := checkArithmetic_agrees hout hagrees
    obtain rfl := Option.some.inj hamount
    rw [statedGap_of_le hle, withinACentAt_extended htotal] at hfar
    cases hfar
  · intro hsafe
    rw [statedGap_of_safe hsafe] at hfar
    have habs : InRange |invoiced.val - received.val| :=
      ⟨(by decide : -maxSafe ≤ 0).trans (abs_nonneg _), abs_le.2 hsafe⟩
    refine ne_floor_ceil (not_lt.1 fun hnear => ?_)
    rw [withinACentAt_iff.2 ⟨habs, hnear⟩] at hfar
    cases hfar

theorem checkShortage_contradiction {sku : Text} {index : Nat} {invoiced received : Option Quantity}
    {price : Option UnitPrice} {claimed : Option Cents} {out : Option Cents × LineVerdict × List Finding}
    (h : checkShortage sku index invoiced received price claimed = .ok out) {f : Finding} (hf : f ∈ out.2.2)
    (hcode : f.code = contradiction) : f.fieldPath = some (linePath index) ∧ out.2.1 ≠ .agrees ∧
      ∃ i r p c, invoiced = some i ∧ received = some r ∧ price = some p ∧ claimed = some c ∧
        (InRange (i.val - r.val) → c.val ≠ ⌊exactCents |i.val - r.val| p⌋ ∧ c.val ≠ ⌈exactCents |i.val - r.val| p⌉) := by
  unfold checkShortage at h
  split at h
  case h_1 i r p =>
    obtain ⟨result, hresult, h⟩ := bind_ok.1 h
    obtain rfl := Except.ok.inj h
    rcases List.mem_append.1 hf with hf | hf
    · cases claimed with
      | none => cases hf
      | some c =>
        obtain ⟨hverdict, hrounding⟩ := contradicted_of_checkQuantities hf hresult
        exact ⟨(mem_checkQuantities hf).1, hverdict, i, r, p, c, rfl, rfl, rfl, rfl, hrounding⟩
    · exact absurd hcode (silent_checkArithmetic hresult f hf)
  case h_2 =>
    obtain rfl := Except.ok.inj h
    cases hf

theorem reconcileNoticeLine_contradiction {index : Nat} {line : NoticeLine}
    {out : NoticeLineReconciliation × List Finding} (h : reconcileNoticeLine T index line = .ok out) {f : Finding}
    (hf : f ∈ out.2) (hcode : f.code = contradiction) :
    f.fieldPath = some (linePath index) ∧ Contradicted T line out.1 := by
  rw [reconcileNoticeLine_eq] at h
  obtain ⟨result, hresult, h⟩ := bind_ok.1 h
  obtain rfl := Except.ok.inj h
  rcases List.mem_append.1 hf with hf | hf
  · exact absurd hcode (silent_append (silent_money _ _) (silent_unitPrice _ _) f hf)
  · obtain ⟨hpath, hverdict, i, r, p, c, hi, hr, hp, hc, hrounding⟩ := checkShortage_contradiction hresult hf hcode
    exact ⟨hpath, hverdict, i, r, p, c, hi, hr, hp, hc, hrounding⟩

/-- Apart from the evidence, what the notice's own lines do not report is no contradiction. -/
theorem reconcileNotice_contradiction {notice : DeductionNotice} {invoice : Option (List InvoiceLine)}
    {po : Option (List PurchaseOrderLine)} {evidence : List Finding} {r : NoticeReconciliation}
    (h : reconcileNotice T notice invoice po evidence = .ok r) {f : Finding} (hf : f ∈ r.findings)
    (hcode : f.code = contradiction) (hevidence : f ∉ evidence) : ∃ index line row,
      notice.lines[index]? = some line ∧ r.lines[index]? = some row ∧ f.fieldPath = some (linePath index) ∧
      Contradicted T line row := by
  obtain ⟨rows, hrows, h⟩ := bind_ok.1 h
  obtain ⟨lineSum, -, h⟩ := bind_ok.1 h
  obtain rfl := Except.ok.inj h
  have hfound : f ∈ rows.flatMap Prod.snd := by
    by_contra hnot
    have hrest : Silent ((money T notice.deduction_total "deduction_total".toList).2 ++
        checkTotal lineSum (money T notice.deduction_total "deduction_total".toList).1 ++
        ((invoice.map fun i => notice.lines.zipIdx.flatMap fun entry => checkInvoiceLine T i entry.2 entry.1).getD []) ++
        ((po.map fun p => notice.lines.zipIdx.flatMap fun entry =>
          checkPurchaseOrderLine T p entry.2 entry.1).getD [])) := by
      refine silent_append (silent_append (silent_append (silent_money _ _) (silent_checkTotal _ _)) ?_) ?_
      · cases invoice with
        | none => exact silent_nil
        | some i => exact silent_flatMap fun entry _ => silent_checkInvoiceLine i entry.2 entry.1
      · cases po with
        | none => exact silent_nil
        | some p => exact silent_flatMap fun entry _ => silent_checkPurchaseOrderLine p entry.2 entry.1
    refine hrest f ?_ hcode
    simp only [List.mem_append] at hf ⊢
    tauto
  obtain ⟨out, hout, hmem⟩ := List.mem_flatMap.1 hfound
  obtain ⟨index, hindex⟩ := List.mem_iff_getElem?.1 hout
  obtain ⟨entry, hentry, hstep⟩ := KeyedFold.getElem?_of_right (mapM_forall₂ hrows) hindex
  obtain ⟨line, hline, rfl⟩ : ∃ line, notice.lines[index]? = some line ∧ entry = (line, index) := by
    rw [List.getElem?_zipIdx] at hentry
    obtain ⟨line, hline, rfl⟩ := Option.map_eq_some_iff.1 hentry
    exact ⟨line, hline, by simp⟩
  obtain ⟨hpath, hcontradicted⟩ := reconcileNoticeLine_contradiction hstep hmem hcode
  exact ⟨index, line, out.1, hline, by simp [hindex], hpath, hcontradicted⟩

theorem linePath_injective : Function.Injective linePath := by
  intro a b h
  have hdigits := List.append_cancel_right h
  exact decimal_injective (List.append_cancel_left hdigits)

/-- Totals are exact products rounded once, units are exact, a rounded total is within a cent, and a line is said to
contradict itself only where its verdict is not `matches` and its amount is no rounding of a safe gap's price. -/
theorem line_arithmetic (T : CaseTables) :
    (∀ quantity price total, extendedCents quantity price = .ok total →
      total.val = halfAway (exactCents quantity price)) ∧
    (∀ amount price units, unitsAtPrice amount price = some units → exactCents units price = amount.val) ∧
    (∀ quantity price amount, InRange quantity → amount.val = halfAway (exactCents quantity price) →
      withinACentAt quantity price amount = true) ∧
    ∀ notice invoice po evidence r, reconcileNotice T notice invoice po evidence = .ok r →
      ∀ f ∈ r.findings, f.code = contradiction → f ∉ evidence →
        (∃ index line row, notice.lines[index]? = some line ∧ r.lines[index]? = some row ∧
          f.fieldPath = some (linePath index) ∧ Contradicted T line row) ∧
        ∀ index row, r.lines[index]? = some row → row.verdict = .agrees → f.fieldPath ≠ some (linePath index) := by
  refine ⟨fun quantity price total h => ?_, fun amount price units => exactCents_unitsAtPrice,
    fun quantity price amount hquantity hamount => ?_, ?_⟩
  · rw [(extendedCents_ok.1 h).2, extended_eq]
  · rw [withinACentAt_iff, hamount]
    exact ⟨hquantity, abs_sub_halfAway_lt _⟩
  · intro notice invoice po evidence r h f hf hcode hevidence
    obtain ⟨index, line, row, hline, hrow, hpath, hcontradicted⟩ :=
      reconcileNotice_contradiction h hf hcode hevidence
    refine ⟨⟨index, line, row, hline, hrow, hpath, hcontradicted⟩, fun other otherRow hother hagrees hsame => ?_⟩
    obtain rfl := linePath_injective (Option.some.inj (hpath.symm.trans hsame))
    obtain rfl := Option.some.inj (hrow.symm.trans hother)
    exact hcontradicted.1 hagrees

end

/-! ## A gap past the safe integers -/

theorem minusOne_inRange : InRange (-1) := by decide

/-- Minus one invoiced and `2 ^ 53 - 1` received: a gap of `2 ^ 53`, at a hundredth of a cent each. -/
def unsafeGap : DeductionNotice where
  lines := [{
    sku_upc := some "SKU-1".toList
    qty_invoiced := some ⟨-1, minusOne_inRange⟩
    qty_received := some ⟨maxSafe, by decide⟩
    unit_cost := some "$0.0001".toList
    deduction_amount := some "$900,719,925,474.09".toList
    reason_code := none }]
  deduction_total := some "$900,719,925,474.09".toList

/-- The amount is the price of the gap rounded down, and the line is reported all the same. -/
theorem unsafe_gap_contradicts : ¬ ∀ notice r, reconcileNotice asciiCase notice none none [] = .ok r →
    ∀ f ∈ r.findings, f.code = contradiction → ∃ line ∈ notice.lines, ∃ invoiced received price claimed,
      line.qty_invoiced = some invoiced ∧ line.qty_received = some received ∧
      quietUnitPrice asciiCase line.unit_cost = some price ∧
      quietMoney asciiCase line.deduction_amount = some claimed ∧
      claimed.val ≠ ⌊exactCents |invoiced.val - received.val| price⌋ ∧
      claimed.val ≠ ⌈exactCents |invoiced.val - received.val| price⌉ := by
  intro h
  have hreported : ∃ r, reconcileNotice asciiCase unsafeGap none none [] = .ok r ∧
      ∃ f ∈ r.findings, f.code = contradiction := by
    have hcodes : (reconcileNotice asciiCase unsafeGap none none []).toOption.map (fun r => r.findings.map (·.code)) =
        some [contradiction, "overage_not_shortage".toList] := by decide +kernel
    obtain ⟨r, hr, hcodes⟩ := Option.map_eq_some_iff.1 hcodes
    have hmem : contradiction ∈ r.findings.map (·.code) := by rw [hcodes]; exact List.mem_cons_self
    obtain ⟨f, hf, hcode⟩ := List.mem_map.1 hmem
    refine ⟨r, ?_, f, hf, hcode⟩
    cases hrun : reconcileNotice asciiCase unsafeGap none none [] with
    | error e => rw [hrun] at hr; cases hr
    | ok r' => rw [hrun] at hr; rw [Option.some.inj hr]
  obtain ⟨r, hr, f, hf, hcode⟩ := hreported
  obtain ⟨line, hline, invoiced, received, price, claimed, hi, hrec, hp, hc, hfloor, -⟩ := h unsafeGap r hr f hf hcode
  obtain rfl := List.mem_singleton.1 hline
  obtain rfl := Option.some.inj hi
  obtain rfl := Option.some.inj hrec
  have hprice : quietUnitPrice asciiCase (some "$0.0001".toList) = some ⟨⟨0, by decide, by decide⟩, true, 1, 4⟩ := by
    decide +kernel
  have hclaimed : quietMoney asciiCase (some "$900,719,925,474.09".toList) =
      some ⟨90071992547409, by decide, by decide⟩ := by decide +kernel
  obtain rfl := Option.some.inj (hprice.symm.trans hp)
  obtain rfl := Option.some.inj (hclaimed.symm.trans hc)
  refine hfloor ?_
  rw [exactCents_eq]
  decide +kernel

end Recouple.Extraction
