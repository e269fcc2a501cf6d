import Recouple.Core.UnitPrice
import Recouple.Extraction.Reconcile

/-!
# Reconciling a notice: `packages/extraction/src/reconcile.ts` (107-162, 387-597)

| here | there |
| --- | --- |
| `readUnitPrice`, `unitPrice` | `unitPrice` (112-143) |
| `checkQuantities` | 440-467 |
| `checkArithmetic` | 469-497 |
| `reconcileNoticeLine` | the body of the loop (392-510) |
| `checkTotal` | 512-522 |
| `checkInvoiceLine`, `checkPurchaseOrderLine` | the three-way match (524-583) |

The checks of shipments and messages that follow add findings and nothing else: they are the argument `evidence`. What
is thrown is its message. A quantity is a safe integer, as the schemas' `z.number().int()` has it.

* **`reconciliation_returns_iff`**: `reconcileNotice` and `reconcileRemittanceLine` return, with every amount they could
  not read reported, exactly where no quantity is negative and no product, difference or sum leaves the exact range.
* `negative_quantity_throws`: a schema-valid line with a negative quantity is thrown, not reported.
-/

namespace Recouple.Extraction
open Js KeyedFold

/-- `z.number().int()`: an integer that a double holds exactly. -/
structure Quantity where
  val : Int
  safe : InRange val

structure NoticeLine where
  sku_upc : Option Text
  qty_invoiced : Option Quantity
  qty_received : Option Quantity
  unit_cost : Option Text
  deduction_amount : Option Text
  reason_code : Option Text

structure DeductionNotice where
  lines : List NoticeLine
  deduction_total : Option Text

structure InvoiceLine where
  sku_upc : Option Text
  qty : Option Quantity

structure PurchaseOrderLine where
  sku_upc : Option Text
  qty_ordered : Option Quantity
  unit_cost : Option Text

/-- The row of a notice's line. Its delta is a plain difference, which no `cents` checks. -/
structure NoticeLineReconciliation where
  sku : Text
  reasonCode : Text
  claimedCents : Option Cents
  expectedShortageCents : Option Cents
  deltaCents : Option Int
  verdict : LineVerdict

structure NoticeReconciliation where
  lines : List NoticeLineReconciliation
  claimedTotalCents : Option Cents
  lineSumCents : Option Cents
  findings : List Finding
  internallyConsistent : Bool

def linePath (index : Nat) : Text := "lines[".toList ++ decimal index ++ [']']

section
variable (T : CaseTables)

/-- A unit price a line can be checked at, or why it is none. -/
def readUnitPrice (text : Text) : Except Text UnitPrice :=
  match parseUnitPrice T text with
  | .error e => .error e.message
  | .ok price => if price.units < 0 then .error "a unit price cannot be negative".toList else .ok price

/-- An unreadable unit price is a finding, not a throw. -/
def unitPrice (field : Option Text) (fieldPath : Text) : Option UnitPrice × List Finding :=
  match field with
  | none => (none, [])
  | some text =>
    match readUnitPrice T text with
    | .ok price => (some price, [])
    | .error why =>
      (none, [⟨"unparseable_amount", .blocking,
        "could not read ".toList ++ quote text ++ " as a unit price: ".toList ++ why, some fieldPath⟩])

def normaliseSku (sku : Text) : Text := (T.toLowerCase sku).filter fun c => ('a' ≤ c && c ≤ 'z') || c.isDigit

/-- What the money says of the quantities. -/
def checkQuantities (sku : Text) (index : Nat) (invoiced received : Quantity) (price : UnitPrice) (claimed : Cents) :
    List Finding :=
  let statedGap : Int := (toDoubleInt (invoiced.val - received.val)).natAbs
  if price.units ≤ 0 then []
  else match unitsAtPrice claimed price with
    | none => []
    | some impliedUnits =>
      if impliedUnits ≠ statedGap && !withinACentAt statedGap price claimed then
        [⟨"quantities_contradict_the_amount", .blocking,
          sku ++ ": ".toList ++ formatCents claimed ++ " deducted at ".toList ++ formatUnitPrice price ++
            " each is ".toList ++ printInt impliedUnits ++ " unit".toList ++ (if impliedUnits = 1 then [] else ['s']) ++
            ", but the line says ".toList ++ printInt invoiced.val ++ " invoiced and ".toList ++
            printInt received.val ++ " received, a gap of ".toList ++ printInt statedGap ++
            ". The quantities and the amount on this line cannot both be right".toList,
          some (linePath index)⟩]
      else []

/-- The shortage at the printed price against what was deducted. -/
def checkArithmetic (sku : Text) (index : Nat) (invoiced received : Quantity) (price : UnitPrice)
    (claimed : Option Cents) : Except Text (Option Cents × LineVerdict × List Finding) :=
  if invoiced.val < received.val then
    .ok (none, .not_checkable, [⟨"overage_not_shortage", .warning,
      sku ++ ": the retailer received ".toList ++ printInt received.val ++ " of ".toList ++ printInt invoiced.val ++
        " invoiced — that is an overage, so a shortage claim does not apply".toList, some (linePath index)⟩])
  else do
    let expected ← shortageCentsAt invoiced.val received.val price
    match claimed with
    | none => .ok (some expected, .not_checkable, [])
    | some claimed =>
      if expected = claimed then .ok (some expected, .agrees, [])
      else .ok (some expected, .differs, [⟨"line_arithmetic_differs",
        if expected.val < claimed.val then .supports_dispute else .warning,
        sku ++ ": (".toList ++ printInt invoiced.val ++ " invoiced − ".toList ++ printInt received.val ++
          " received) × ".toList ++ formatUnitPrice price ++ " = ".toList ++ formatCents expected ++ ", but ".toList ++
          formatCents claimed ++ " was deducted".toList, some (linePath index)⟩])

/-- A line's quantities and unit price, where it has all three. -/
def checkShortage (sku : Text) (index : Nat) (invoiced received : Option Quantity) (price : Option UnitPrice)
    (claimed : Option Cents) : Except Text (Option Cents × LineVerdict × List Finding) :=
  match invoiced, received, price with
  | some invoiced, some received, some price => do
    let contradicts := (claimed.map (checkQuantities sku index invoiced received price)).getD []
    let (expected, verdict, found) ← checkArithmetic sku index invoiced received price claimed
    .ok (expected, verdict, contradicts ++ found)
  | _, _, _ => .ok (none, .not_checkable, [])

def reconcileNoticeLine (index : Nat) (line : NoticeLine) : Except Text (NoticeLineReconciliation × List Finding) := do
  let sku := line.sku_upc.getD ("line ".toList ++ decimal (index + 1))
  let (claimed, f₁) := money T line.deduction_amount (linePath index ++ ".deduction_amount".toList)
  let (price, f₂) := unitPrice T line.unit_cost (linePath index ++ ".unit_cost".toList)
  let (expected, verdict, f₃) ← checkShortage sku index line.qty_invoiced line.qty_received price claimed
  let delta := claimed.bind fun c => expected.map fun e => toDoubleInt (c.val - e.val)
  .ok (⟨sku, line.reason_code.getD [], claimed, expected, delta, verdict⟩, f₁ ++ f₂ ++ f₃)

/-- The sum of the lines' amounts, where every line prints one that can be read. -/
def lineSumOf (claimed : List (Option Cents)) : Except Text (Option Cents) :=
  match claimed.mapM id with
  | none => .ok none
  | some amounts => ((sumCents amounts).mapError MoneyError.message).map some

/-- Do the notice's own lines add up to the total it claims? -/
def checkTotal (lineSum claimedTotal : Option Cents) : List Finding :=
  match lineSum, claimedTotal with
  | some lineSum, some claimedTotal =>
    if lineSum = claimedTotal then []
    else [⟨"total_does_not_match_lines", .blocking,
      "the notice's lines sum to ".toList ++ formatCents lineSum ++ " but its total says ".toList ++
        formatCents claimedTotal, some "deduction_total".toList⟩]
  | _, _ => []

/-- `new Map(...).get(normaliseSku(sku))`: the last line of the item. -/
def lineOfSku {α : Type} (skuOf : α → Option Text) (lines : List α) (sku : Text) : Option α :=
  (lines.filter fun line => (skuOf line).any fun other => normaliseSku T other = normaliseSku T sku).getLast?

def checkInvoiceLine (invoice : List InvoiceLine) (index : Nat) (line : NoticeLine) : List Finding :=
  match line.sku_upc with
  | none => []
  | some sku =>
    match lineOfSku T InvoiceLine.sku_upc invoice sku with
    | none => [⟨"item_not_on_invoice", .supports_dispute,
        sku ++ " was deducted but does not appear on the invoice".toList,
        some (linePath index ++ ".sku_upc".toList)⟩]
    | some invoiceLine =>
      match line.qty_invoiced, invoiceLine.qty with
      | some noticeQty, some invoiceQty =>
        if noticeQty.val = invoiceQty.val then []
        else [⟨"invoiced_quantity_differs", .warning,
          sku ++ ": the notice says ".toList ++ printInt noticeQty.val ++ " invoiced, the invoice says ".toList ++
            printInt invoiceQty.val, some (linePath index ++ ".qty_invoiced".toList)⟩]
      | _, _ => []

def checkPurchaseOrderLine (po : List PurchaseOrderLine) (index : Nat) (line : NoticeLine) : List Finding :=
  match line.sku_upc with
  | none => []
  | some sku =>
    match lineOfSku T PurchaseOrderLine.sku_upc po sku with
    | none => []
    | some poLine =>
      let (noticeCost, f₁) := unitPrice T line.unit_cost (linePath index ++ ".unit_cost".toList)
      let (poCost, f₂) := unitPrice T poLine.unit_cost "po.lines.unit_cost".toList
      let costs :=
        match noticeCost, poCost with
        | some noticeCost, some poCost =>
          if compareUnitPrices noticeCost poCost = 0 then []
          else [⟨"unit_cost_differs_from_po", .supports_dispute,
            sku ++ ": the deduction uses ".toList ++ formatUnitPrice noticeCost ++ " but the PO agreed ".toList ++
              formatUnitPrice poCost, some (linePath index ++ ".unit_cost".toList)⟩]
        | _, _ => []
      let quantities :=
        match line.qty_invoiced, poLine.qty_ordered with
        | some noticeQty, some orderedQty =>
          if noticeQty.val ≤ orderedQty.val then []
          else [⟨"invoiced_above_po_quantity", .warning,
            sku ++ ": ".toList ++ printInt noticeQty.val ++ " invoiced against a PO for ".toList ++
              printInt orderedQty.val, some (linePath index ++ ".qty_invoiced".toList)⟩]
        | _, _ => []
      f₁ ++ f₂ ++ costs ++ quantities

def reconcileNotice (notice : DeductionNotice) (invoice : Option (List InvoiceLine))
    (po : Option (List PurchaseOrderLine)) (evidence : List Finding) : Except Text NoticeReconciliation := do
  let rows ← notice.lines.zipIdx.mapM fun entry => reconcileNoticeLine T entry.2 entry.1
  let lines := rows.map Prod.fst
  let lineSum ← lineSumOf (lines.map (·.claimedCents))
  let (claimedTotal, f) := money T notice.deduction_total "deduction_total".toList
  let findings := rows.flatMap Prod.snd ++ f ++ checkTotal lineSum claimedTotal ++
    ((invoice.map fun i => notice.lines.zipIdx.flatMap fun entry => checkInvoiceLine T i entry.2 entry.1).getD []) ++
    ((po.map fun p => notice.lines.zipIdx.flatMap fun entry => checkPurchaseOrderLine T p entry.2 entry.1).getD []) ++
    evidence
  .ok ⟨lines, claimedTotal, lineSum, findings, !findings.any fun f => f.severity = .blocking⟩

end

/-! ## When a notice can be computed -/

section
variable {T : CaseTables}

def Unreadable (T : CaseTables) (field : Option Text) : Prop :=
  ∃ text e, field = some text ∧ parseMoneyToCents T text = .error e

def UnreadablePrice (T : CaseTables) (field : Option Text) : Prop :=
  ∃ text why, field = some text ∧ readUnitPrice T text = .error why

/-- A blocking finding says that the amount at the path could not be read. -/
def Reports (findings : List Finding) (path : Text) : Prop :=
  ∃ f ∈ findings, f.code = "unparseable_amount".toList ∧ f.severity = .blocking ∧ f.fieldPath = some path

theorem Reports.mono {findings more : List Finding} {path : Text} (h : Reports findings path)
    (hsub : ∀ f ∈ findings, f ∈ more) : Reports more path := by
  obtain ⟨f, hf, hrest⟩ := h
  exact ⟨f, hsub f hf, hrest⟩

theorem money_fst (field : Option Text) (path : Text) : (money T field path).1 = quietMoney T field := by
  cases field with
  | none => rfl
  | some text =>
    cases hparse : parseMoneyToCents T text <;> simp [money, quietMoney, hparse, Except.toOption]

theorem money_reports {field : Option Text} (h : Unreadable T field) (path : Text) :
    Reports (money T field path).2 path := by
  obtain ⟨text, e, rfl, he⟩ := h
  have hfound : (money T (some text) path).2 = [⟨"unparseable_amount", .blocking,
      "could not read ".toList ++ quote text ++ " as an amount: ".toList ++ e.message, some path⟩] := by
    simp [money, he]
  rw [hfound]
  exact ⟨_, List.mem_singleton_self _, rfl, rfl, rfl⟩

/-- The unit price of a field, where it prints one that can be read. -/
def quietUnitPrice (T : CaseTables) (field : Option Text) : Option UnitPrice :=
  field.bind fun text => (readUnitPrice T text).toOption

theorem unitPrice_fst (field : Option Text) (path : Text) : (unitPrice T field path).1 = quietUnitPrice T field := by
  cases field with
  | none => rfl
  | some text =>
    cases hread : readUnitPrice T text <;> simp [unitPrice, quietUnitPrice, hread, Except.toOption]

theorem unitPrice_reports {field : Option Text} (h : UnreadablePrice T field) (path : Text) :
    Reports (unitPrice T field path).2 path := by
  obtain ⟨text, why, rfl, hwhy⟩ := h
  have hfound : (unitPrice T (some text) path).2 = [⟨"unparseable_amount", .blocking,
      "could not read ".toList ++ quote text ++ " as a unit price: ".toList ++ why, some path⟩] := by
    simp [unitPrice, hwhy]
  rw [hfound]
  exact ⟨_, List.mem_singleton_self _, rfl, rfl, rfl⟩

theorem quietUnitPrice_nonneg {field : Option Text} {price : UnitPrice} (h : quietUnitPrice T field = some price) :
    0 ≤ price.units := by
  obtain ⟨text, -, hprice⟩ := Option.bind_eq_some_iff.1 h
  unfold readUnitPrice at hprice
  cases hparse : parseUnitPrice T text with
  | error e => simp [hparse, Except.toOption] at hprice
  | ok parsed =>
    simp only [hparse] at hprice
    split at hprice
    case isTrue => cases hprice
    case isFalse hunits =>
      obtain rfl := Option.some.inj hprice
      omega

/-- A line's shortage can be priced: no quantity is negative and its total is exact. -/
def LineComputable (T : CaseTables) (line : NoticeLine) : Prop :=
  ∀ invoiced received price, line.qty_invoiced = some invoiced → line.qty_received = some received →
    quietUnitPrice T line.unit_cost = some price → received.val ≤ invoiced.val →
    0 ≤ received.val ∧ InRange (extended (invoiced.val - received.val) price)

theorem checkArithmetic_returns (sku : Text) (index : Nat) (invoiced received : Quantity) (claimed : Option Cents)
    {price : UnitPrice} (hprice : 0 ≤ price.units) :
    (∃ out, checkArithmetic sku index invoiced received price claimed = .ok out) ↔ (received.val ≤ invoiced.val →
      0 ≤ received.val ∧ InRange (extended (invoiced.val - received.val) price)) := by
  unfold checkArithmetic
  split
  case isTrue hover => exact ⟨fun _ hle => absurd hle (by omega), fun _ => ⟨_, rfl⟩⟩
  case isFalse hle =>
    rw [forall_prop_of_true (by omega), ← shortageCentsAt_returns invoiced.safe (by omega) hprice]
    constructor
    · rintro ⟨out, h⟩
      obtain ⟨expected, hexpected, -⟩ := bind_ok.1 h
      exact ⟨expected, hexpected⟩
    · rintro ⟨expected, hexpected⟩
      rw [hexpected]
      cases claimed with
      | none => exact ⟨_, rfl⟩
      | some claimed =>
        by_cases hagrees : expected = claimed
        · exact ⟨_, if_pos hagrees⟩
        · exact ⟨_, if_neg hagrees⟩

theorem checkShortage_returns {sku : Text} {index : Nat} {line : NoticeLine} {claimed : Option Cents} :
    (∃ out, checkShortage sku index line.qty_invoiced line.qty_received (quietUnitPrice T line.unit_cost) claimed =
      .ok out) ↔ LineComputable T line := by
  unfold LineComputable
  cases hinvoiced : line.qty_invoiced with
  | none => simp [checkShortage]
  | some invoiced =>
    cases hreceived : line.qty_received with
    | none => simp [checkShortage]
    | some received =>
      cases hprice : quietUnitPrice T line.unit_cost with
      | none => simp [checkShortage]
      | some price =>
        have harithmetic := checkArithmetic_returns sku index invoiced received claimed (quietUnitPrice_nonneg hprice)
        constructor
        · rintro ⟨out, h⟩ i r p hi hr hp
          obtain rfl := Option.some.inj hi
          obtain rfl := Option.some.inj hr
          obtain rfl := Option.some.inj hp
          obtain ⟨result, hresult, -⟩ := bind_ok.1 h
          exact harithmetic.1 ⟨result, hresult⟩
        · intro h
          obtain ⟨result, hresult⟩ := harithmetic.2 (h invoiced received price rfl rfl rfl)
          exact ⟨_, bind_ok.2 ⟨result, hresult, rfl⟩⟩

theorem reconcileNoticeLine_eq (index : Nat) (line : NoticeLine) : reconcileNoticeLine T index line =
    checkShortage (line.sku_upc.getD ("line ".toList ++ decimal (index + 1))) index line.qty_invoiced
      line.qty_received (quietUnitPrice T line.unit_cost) (quietMoney T line.deduction_amount) >>= fun result =>
    .ok (⟨line.sku_upc.getD ("line ".toList ++ decimal (index + 1)), line.reason_code.getD [],
        quietMoney T line.deduction_amount, result.1,
        (quietMoney T line.deduction_amount).bind fun c => result.1.map fun e => toDoubleInt (c.val - e.val),
        result.2.1⟩,
      (money T line.deduction_amount (linePath index ++ ".deduction_amount".toList)).2 ++
        (unitPrice T line.unit_cost (linePath index ++ ".unit_cost".toList)).2 ++ result.2.2) := by
  rw [← money_fst line.deduction_amount (linePath index ++ ".deduction_amount".toList),
    ← unitPrice_fst line.unit_cost (linePath index ++ ".unit_cost".toList)]
  rfl

theorem reconcileNoticeLine_returns {index : Nat} {line : NoticeLine} :
    (∃ out, reconcileNoticeLine T index line = .ok out) ↔ LineComputable T line := by
  rw [reconcileNoticeLine_eq]
  constructor
  · rintro ⟨out, h⟩
    obtain ⟨result, hresult, -⟩ := bind_ok.1 h
    exact checkShortage_returns.1 ⟨result, hresult⟩
  · intro h
    obtain ⟨result, hresult⟩ := checkShortage_returns.2 h
    exact ⟨_, bind_ok.2 ⟨result, hresult, rfl⟩⟩

/-- What a line could not be computed with is among its findings. -/
structure LineReported (T : CaseTables) (index : Nat) (line : NoticeLine) (findings : List Finding) : Prop where
  deduction : Unreadable T line.deduction_amount → Reports findings (linePath index ++ ".deduction_amount".toList)
  unitCost : UnreadablePrice T line.unit_cost → Reports findings (linePath index ++ ".unit_cost".toList)
  overage : ∀ invoiced received price, line.qty_invoiced = some invoiced → line.qty_received = some received →
    quietUnitPrice T line.unit_cost = some price → invoiced.val < received.val →
    ∃ f ∈ findings, f.code = "overage_not_shortage".toList ∧ f.fieldPath = some (linePath index)

theorem LineReported.mono {index : Nat} {line : NoticeLine} {findings more : List Finding}
    (h : LineReported T index line findings) (hsub : ∀ f ∈ findings, f ∈ more) : LineReported T index line more where
  deduction hd := (h.deduction hd).mono hsub
  unitCost hu := (h.unitCost hu).mono hsub
  overage invoiced received price hi hr hp hover := by
    obtain ⟨f, hf, hrest⟩ := h.overage invoiced received price hi hr hp hover
    exact ⟨f, hsub f hf, hrest⟩

theorem reconcileNoticeLine_reports {index : Nat} {line : NoticeLine}
    {out : NoticeLineReconciliation × List Finding} (h : reconcileNoticeLine T index line = .ok out) :
    out.1.claimedCents = quietMoney T line.deduction_amount ∧ LineReported T index line out.2 := by
  rw [reconcileNoticeLine_eq] at h
  obtain ⟨⟨expected, verdict, found⟩, hresult, h⟩ := bind_ok.1 h
  obtain rfl := Except.ok.inj h
  refine ⟨rfl, fun hd => ?_, fun hu => ?_, fun invoiced received price hi hr hp hover => ?_⟩
  · exact (money_reports hd _).mono fun f hf => List.mem_append_left _ (List.mem_append_left _ hf)
  · exact (unitPrice_reports hu _).mono fun f hf => List.mem_append_left _ (List.mem_append_right _ hf)
  · rw [hi, hr, hp] at hresult
    obtain ⟨result, hcheck, hpair⟩ := bind_ok.1 hresult
    unfold checkArithmetic at hcheck
    rw [if_pos hover] at hcheck
    obtain rfl := Except.ok.inj hcheck
    obtain ⟨rfl, rfl, rfl⟩ : expected = none ∧ verdict = .not_checkable ∧ _ = found := by
      have := Except.ok.inj hpair
      simp only [Prod.mk.injEq] at this
      exact ⟨this.1.symm, this.2.1.symm, this.2.2⟩
    refine ⟨_, List.mem_append_right _ (List.mem_append_right _ (List.mem_singleton_self _)), rfl, rfl⟩

/-- Every partial sum of the amounts is one that `Cents` can hold. -/
def SumsInRange (amounts : List Cents) : Prop := ∀ k, InRange ((amounts.take k).map (·.val)).sum

theorem lineSumOf_returns {claimed : List (Option Cents)} :
    (∃ out, lineSumOf claimed = .ok out) ↔ ∀ amounts, claimed.mapM id = some amounts → SumsInRange amounts := by
  unfold lineSumOf
  cases hall : claimed.mapM id with
  | none => simp
  | some amounts =>
    simp only [Option.some.injEq, forall_eq']
    rw [SumsInRange, ← sumCents_returns]
    cases sumCents amounts <;> simp [Except.mapError, Except.map]

/-- Every line of the notice can be priced, and its amounts can be summed where all of them can be read. -/
structure NoticeComputable (T : CaseTables) (notice : DeductionNotice) : Prop where
  lines : ∀ line ∈ notice.lines, LineComputable T line
  sums : ∀ amounts, (notice.lines.map fun line => quietMoney T line.deduction_amount).mapM id = some amounts →
    SumsInRange amounts

/-- What the notice could not be computed with is among the findings. -/
structure NoticeReported (T : CaseTables) (notice : DeductionNotice) (po : Option (List PurchaseOrderLine))
    (findings : List Finding) : Prop where
  lines : ∀ index line, notice.lines[index]? = some line → LineReported T index line findings
  total : Unreadable T notice.deduction_total → Reports findings "deduction_total".toList
  poCost : ∀ orders line sku poLine, po = some orders → line ∈ notice.lines → line.sku_upc = some sku →
    lineOfSku T PurchaseOrderLine.sku_upc orders sku = some poLine → UnreadablePrice T poLine.unit_cost →
    Reports findings "po.lines.unit_cost".toList

/-- The rows of the notice's lines carry the amounts that can be read. -/
theorem claimed_of_rows {lines : List NoticeLine} {rows : List (NoticeLineReconciliation × List Finding)}
    (h : (lines.zipIdx.mapM fun entry => reconcileNoticeLine T entry.2 entry.1) = .ok rows) :
    (rows.map Prod.fst).map (·.claimedCents) = lines.map fun line => quietMoney T line.deduction_amount := by
  have key : ∀ {entries : List (NoticeLine × Nat)},
      List.Forall₂ (fun entry row => reconcileNoticeLine T entry.2 entry.1 = .ok row) entries rows →
      (rows.map Prod.fst).map (·.claimedCents) =
        (entries.map Prod.fst).map fun line => quietMoney T line.deduction_amount := by
    intro entries hrows
    clear h
    induction hrows with
    | nil => rfl
    | cons hrow _ ih =>
      rw [List.map_cons, List.map_cons, List.map_cons, List.map_cons, ih, (reconcileNoticeLine_reports hrow).1]
  rw [key (mapM_forall₂ h), List.zipIdx_map_fst]

theorem reconcileNotice_returns {notice : DeductionNotice} (invoice : Option (List InvoiceLine))
    (po : Option (List PurchaseOrderLine)) (evidence : List Finding) :
    (∃ r, reconcileNotice T notice invoice po evidence = .ok r) ↔ NoticeComputable T notice := by
  constructor
  · rintro ⟨r, h⟩
    obtain ⟨rows, hrows, h⟩ := bind_ok.1 h
    obtain ⟨lineSum, hsum, -⟩ := bind_ok.1 h
    refine ⟨fun line hline => ?_, ?_⟩
    · obtain ⟨index, hindex⟩ := List.mem_iff_getElem?.1 hline
      have hmem : (line, index) ∈ notice.lines.zipIdx := List.mem_zipIdx_iff_getElem?.2 hindex
      obtain ⟨row, hrow⟩ := mapM_all hrows _ hmem
      exact reconcileNoticeLine_returns.1 ⟨row, hrow⟩
    · rw [← claimed_of_rows hrows]
      exact lineSumOf_returns.1 ⟨lineSum, hsum⟩
  · intro h
    obtain ⟨rows, hrows⟩ : ∃ rows, (notice.lines.zipIdx.mapM fun entry => reconcileNoticeLine T entry.2 entry.1) =
        .ok rows := mapM_returns fun entry hmem =>
      reconcileNoticeLine_returns.2 (h.lines entry.1 (List.fst_mem_of_mem_zipIdx hmem))
    have hsums := h.sums
    rw [← claimed_of_rows hrows] at hsums
    obtain ⟨lineSum, hsum⟩ := lineSumOf_returns.2 hsums
    exact ⟨_, bind_ok.2 ⟨rows, hrows, bind_ok.2 ⟨lineSum, hsum, rfl⟩⟩⟩

theorem checkPurchaseOrderLine_reports (index : Nat) {orders : List PurchaseOrderLine} {line : NoticeLine} {sku : Text}
    {poLine : PurchaseOrderLine} (hsku : line.sku_upc = some sku)
    (hpo : lineOfSku T PurchaseOrderLine.sku_upc orders sku = some poLine) (h : UnreadablePrice T poLine.unit_cost) :
    Reports (checkPurchaseOrderLine T orders index line) "po.lines.unit_cost".toList := by
  have hfound := unitPrice_reports h "po.lines.unit_cost".toList
  unfold checkPurchaseOrderLine
  simp only [hsku, hpo]
  refine hfound.mono fun f hf => ?_
  exact List.mem_append_left _ (List.mem_append_left _ (List.mem_append_right _ hf))

theorem reconcileNotice_reports {notice : DeductionNotice} {invoice : Option (List InvoiceLine)}
    {po : Option (List PurchaseOrderLine)} {evidence : List Finding} {r : NoticeReconciliation}
    (h : reconcileNotice T notice invoice po evidence = .ok r) : NoticeReported T notice po r.findings := by
  obtain ⟨rows, hrows, h⟩ := bind_ok.1 h
  obtain ⟨lineSum, -, h⟩ := bind_ok.1 h
  obtain rfl := Except.ok.inj h
  dsimp only
  refine ⟨fun index line hline => ?_, fun htotal => ?_, ?_⟩
  · have hmem : (line, index) ∈ notice.lines.zipIdx := List.mem_zipIdx_iff_getElem?.2 hline
    obtain ⟨row, hrow, hstep⟩ := exists_of_mem_left (mapM_forall₂ hrows) hmem
    refine (reconcileNoticeLine_reports hstep).2.mono fun f hf => ?_
    simp only [List.mem_append, List.mem_flatMap]
    exact .inl (.inl (.inl (.inl (.inl ⟨row, hrow, hf⟩))))
  · refine (money_reports htotal "deduction_total".toList).mono fun f hf => ?_
    simp only [List.mem_append]
    exact .inl (.inl (.inl (.inl (.inr hf))))
  · rintro orders line sku poLine rfl hline hsku hpo hprice
    obtain ⟨index, hindex⟩ := List.mem_iff_getElem?.1 hline
    have hmem : (line, index) ∈ notice.lines.zipIdx := List.mem_zipIdx_iff_getElem?.2 hindex
    refine (checkPurchaseOrderLine_reports index hsku hpo hprice).mono fun f hf => ?_
    simp only [List.mem_append, Option.map_some, Option.getD_some, List.mem_flatMap]
    exact .inl (.inr ⟨_, hmem, hf⟩)

/-! ## When a remittance line can be computed -/

/-- The deduction a line prints, a dash being none. -/
def printedOf (T : CaseTables) (line : RemittanceLine) : Option Cents :=
  if printsDash line.deduction_amount then none else quietMoney T line.deduction_amount

/-- The deductions of a line and of those that repeat its invoice, where all of them can be read. -/
def sharesOf (T : CaseTables) (lines : List RemittanceLine) (index : Nat) (gross net : Cents) : Option (List Cents) :=
  (index :: sharingInvoice T lines index gross net).mapM fun i => sharedDeduction T lines[i]?

/-- Other lines repeat the invoice, and together they deduct what its columns withhold. -/
def SharesAddUp (T : CaseTables) (lines : List RemittanceLine) (index : Nat) (gross net : Cents) : Prop :=
  sharingInvoice T lines index gross net ≠ [] ∧
    ∃ amounts, sharesOf T lines index gross net = some amounts ∧ (amounts.map (·.val)).sum = gross.val - net.val

/-- What is withheld, what the lines of a shared invoice deduct, and by how much the two differ, are all exact. -/
structure RemittanceComputable (T : CaseTables) (lines : List RemittanceLine) (index : Nat) (line : RemittanceLine) :
    Prop where
  withheld : ∀ gross net, quietMoney T line.gross_amount = some gross → quietMoney T line.net_amount = some net →
    InRange (gross.val - net.val)
  shares : ∀ gross net, quietMoney T line.gross_amount = some gross → quietMoney T line.net_amount = some net →
    (printedOf T line).isSome → sharingInvoice T lines index gross net ≠ [] →
    ∀ amounts, sharesOf T lines index gross net = some amounts → SumsInRange amounts
  delta : ∀ gross net printed, quietMoney T line.gross_amount = some gross → quietMoney T line.net_amount = some net →
    printedOf T line = some printed → ¬ SharesAddUp T lines index gross net →
    InRange (printed.val - (gross.val - net.val))

theorem sharedDeductions_ok {lines : List RemittanceLine} {index : Nat} {gross net : Cents} {shared : Option Cents} :
    sharedDeductions T lines (index :: sharingInvoice T lines index gross net) = .ok shared ↔
      match sharesOf T lines index gross net with
      | none => shared = none
      | some amounts => ∃ sum, sumCents amounts = .ok sum ∧ shared = some sum := by
  unfold sharedDeductions
  rw [← sharesOf]
  cases sharesOf T lines index gross net with
  | none => simp [eq_comm]
  | some amounts =>
    dsimp only
    rw [map_ok]
    simp only [eq_comm]

/-- The verdict on a line that prints its own deduction. -/
theorem checkShare_ok {lines : List RemittanceLine} {index : Nat} {label : Text} {printed gross net implied : Cents}
    (himplied : implied.val = gross.val - net.val) {out : LineVerdict × List Finding}
    (h : checkShare T lines index label (some printed) gross net implied = .ok out) :
    (sharingInvoice T lines index gross net ≠ [] →
      ∀ amounts, sharesOf T lines index gross net = some amounts → SumsInRange amounts) ∧
    (out.1 = .agrees ↔ sharingInvoice T lines index gross net = [] ∧ printed = implied ∨
      SharesAddUp T lines index gross net) := by
  unfold checkShare at h
  dsimp only at h
  unfold SharesAddUp
  split at h
  case isTrue halone =>
    simp only [halone, ne_eq, not_true, false_and, or_false, true_and, false_implies]
    split at h
    case isTrue hsame =>
      obtain rfl := Except.ok.inj h
      simp [hsame]
    case isFalse hother =>
      obtain rfl := Except.ok.inj h
      simp [hother]
  case isFalse hshared =>
    obtain ⟨shared, hsum, h⟩ := bind_ok.1 h
    rw [sharedDeductions_ok] at hsum
    simp only [hshared, ne_eq, not_false_eq_true, true_and, false_and, false_or, true_implies]
    cases hshares : sharesOf T lines index gross net with
    | none =>
      rw [hshares] at hsum
      dsimp only at hsum
      subst hsum
      obtain rfl := Except.ok.inj h
      simp
    | some amounts =>
      rw [hshares] at hsum
      obtain ⟨sum, hsum, rfl⟩ := hsum
      obtain ⟨hrange, htotal⟩ := sumCents_ok.1 hsum
      have hagree : some sum = some implied ↔ (amounts.map (·.val)).sum = gross.val - net.val := by
        rw [Option.some.injEq, Cents.ext_iff, htotal, himplied]
      refine ⟨fun other hother => Option.some.inj hother ▸ hrange, ?_⟩
      split at h
      case isTrue hsame =>
        obtain rfl := Except.ok.inj h
        simp [hagree.1 hsame]
      case isFalse hother =>
        obtain rfl := Except.ok.inj h
        simpa using fun e => hother (hagree.2 e)

theorem checkShare_returns (label : Text) (printed implied : Cents) {lines : List RemittanceLine} {index : Nat}
    {gross net : Cents} (h : sharingInvoice T lines index gross net ≠ [] →
      ∀ amounts, sharesOf T lines index gross net = some amounts → SumsInRange amounts) :
    ∃ out, checkShare T lines index label (some printed) gross net implied = .ok out := by
  unfold checkShare
  dsimp only
  split
  case isTrue =>
    split
    · exact ⟨_, rfl⟩
    · exact ⟨_, rfl⟩
  case isFalse hshared =>
    obtain ⟨shared, hsum⟩ :
        ∃ shared, sharedDeductions T lines (index :: sharingInvoice T lines index gross net) = .ok shared := by
      simp only [sharedDeductions_ok]
      cases hshares : sharesOf T lines index gross net with
      | none => exact ⟨none, rfl⟩
      | some amounts =>
        obtain ⟨sum, hsum⟩ := sumCents_returns.2 (h hshared amounts hshares)
        exact ⟨some sum, sum, hsum, rfl⟩
    rw [hsum]
    by_cases hsame : shared = some implied
    · exact ⟨_, if_pos hsame⟩
    · exact ⟨_, if_neg hsame⟩

/-- What of a line, its columns aside, could not be read. -/
def lineFound (T : CaseTables) (index : Nat) (line : RemittanceLine) : List Finding :=
  (if printsDash line.deduction_amount then []
    else (money T line.deduction_amount (linePath index ++ ".deduction_amount".toList)).2) ++
  (money T line.gross_amount (linePath index ++ ".gross_amount".toList)).2 ++
  (money T line.net_amount (linePath index ++ ".net_amount".toList)).2

theorem reconcileLine_ok {lines : List RemittanceLine} {index : Nat} {line : RemittanceLine}
    {invoice : Option InvoiceTotals} {out : LineReconciliation × List Finding} :
    reconcileLine T lines index line invoice = .ok out ↔
      ∃ columns, checkColumns T lines index (line.invoice_number.getD ("line ".toList ++ decimal (index + 1)))
        (printsDash line.deduction_amount) (printedOf T line) (quietMoney T line.gross_amount)
        (quietMoney T line.net_amount) = .ok columns ∧
      ∃ delta, differenceOf (printedOf T line)
        (if columns.2.1 = .agrees ∧ (printedOf T line).isSome then printedOf T line else columns.1) = .ok delta ∧
      out = (⟨line.invoice_number.getD ("line ".toList ++ decimal (index + 1)), line.reason_code.getD [],
          (printedOf T line).or columns.1,
          if columns.2.1 = .agrees ∧ (printedOf T line).isSome then printedOf T line else columns.1, delta,
          columns.2.1, quietMoney T line.gross_amount, quietMoney T line.net_amount⟩,
        lineFound T index line ++ columns.2.2 ++
          (invoice.map (checkInvoice T index (line.invoice_number.getD ("line ".toList ++ decimal (index + 1)))
            line.invoice_number (quietMoney T line.gross_amount))).getD []) := by
  have hprinted : printedOf T line = (if printsDash line.deduction_amount then (none, ([] : List Finding))
      else money T line.deduction_amount (linePath index ++ ".deduction_amount".toList)).1 := by
    unfold printedOf
    split
    · rfl
    · rw [money_fst]
  have hfound : lineFound T index line = (if printsDash line.deduction_amount then ((none : Option Cents), [])
      else money T line.deduction_amount (linePath index ++ ".deduction_amount".toList)).2 ++
      (money T line.gross_amount (linePath index ++ ".gross_amount".toList)).2 ++
      (money T line.net_amount (linePath index ++ ".net_amount".toList)).2 := by
    unfold lineFound
    split <;> rfl
  rw [hfound, hprinted, ← money_fst line.gross_amount (linePath index ++ ".gross_amount".toList),
    ← money_fst line.net_amount (linePath index ++ ".net_amount".toList)]
  constructor
  · intro h
    obtain ⟨columns, hcolumns, h⟩ := bind_ok.1 h
    obtain ⟨delta, hdelta, h⟩ := bind_ok.1 h
    exact ⟨columns, hcolumns, delta, hdelta, (Except.ok.inj h).symm⟩
  · rintro ⟨columns, hcolumns, delta, hdelta, rfl⟩
    exact bind_ok.2 ⟨columns, hcolumns, bind_ok.2 ⟨delta, hdelta, rfl⟩⟩

theorem checkColumns_ok {lines : List RemittanceLine} {index : Nat} {label : Text} {dash : Bool}
    {printed : Option Cents} {gross net : Cents} {columns : Option Cents × LineVerdict × List Finding}
    (h : checkColumns T lines index label dash printed (some gross) (some net) = .ok columns) :
    ∃ implied share, implied.val = gross.val - net.val ∧
      checkShare T lines index label printed gross net implied = .ok share ∧
      columns.1 = some implied ∧ columns.2.1 = share.1 := by
  obtain ⟨implied, himplied, h⟩ := bind_ok.1 h
  obtain ⟨share, hshare, h⟩ := bind_ok.1 h
  obtain rfl := Except.ok.inj h
  exact ⟨implied, share, subCents_ok.1 himplied, hshare, rfl, rfl⟩

theorem differenceOf_returns {printed implied : Cents} :
    (∃ delta, differenceOf (some printed) (some implied) = .ok delta) ↔ InRange (printed.val - implied.val) := by
  rw [← subCents_returns]
  unfold differenceOf
  dsimp only
  cases subCents printed implied <;> simp [Except.map]

theorem inRange_zero : InRange 0 := by decide

theorem computable_of_returns {lines : List RemittanceLine} {index : Nat} {line : RemittanceLine}
    {invoice : Option InvoiceTotals} {out : LineReconciliation × List Finding}
    (h : reconcileLine T lines index line invoice = .ok out) : RemittanceComputable T lines index line := by
  obtain ⟨columns, hcolumns, delta, hdelta, -⟩ := reconcileLine_ok.1 h
  refine ⟨fun gross net hgross hnet => ?_, fun gross net hgross hnet hprinted => ?_,
    fun gross net printed hgross hnet hprinted hapart => ?_⟩
  · rw [hgross, hnet] at hcolumns
    obtain ⟨implied, -, himplied, -⟩ := checkColumns_ok hcolumns
    rw [← himplied]
    exact implied.inRange
  · obtain ⟨printed, hprinted⟩ := Option.isSome_iff_exists.1 hprinted
    rw [hgross, hnet, hprinted] at hcolumns
    obtain ⟨implied, share, himplied, hshare, -⟩ := checkColumns_ok hcolumns
    exact (checkShare_ok himplied hshare).1
  · rw [hgross, hnet, hprinted] at hcolumns
    obtain ⟨implied, share, himplied, hshare, hfirst, hverdict⟩ := checkColumns_ok hcolumns
    have hagrees := (checkShare_ok himplied hshare).2
    rw [← himplied]
    by_cases hsame : share.1 = .agrees
    · obtain ⟨-, hequal⟩ | hadd := hagrees.1 hsame
      · rw [hequal, Int.sub_self]
        exact inRange_zero
      · exact absurd hadd hapart
    · rw [hprinted, hverdict, if_neg fun e => hsame e.1, hfirst] at hdelta
      exact differenceOf_returns.1 ⟨delta, hdelta⟩

theorem returns_of_computable {lines : List RemittanceLine} {index : Nat} {line : RemittanceLine}
    (h : RemittanceComputable T lines index line) (invoice : Option InvoiceTotals) :
    ∃ out, reconcileLine T lines index line invoice = .ok out := by
  simp only [reconcileLine_ok]
  suffices hsuffices : ∃ columns, checkColumns T lines index
      (line.invoice_number.getD ("line ".toList ++ decimal (index + 1))) (printsDash line.deduction_amount)
      (printedOf T line) (quietMoney T line.gross_amount) (quietMoney T line.net_amount) = .ok columns ∧
      ∃ delta, differenceOf (printedOf T line)
        (if columns.2.1 = .agrees ∧ (printedOf T line).isSome then printedOf T line else columns.1) = .ok delta by
    obtain ⟨columns, hcolumns, delta, hdelta⟩ := hsuffices
    exact ⟨_, columns, hcolumns, delta, hdelta, rfl⟩
  have hnone : ∀ printed : Option Cents, differenceOf printed
      (if LineVerdict.not_checkable = .agrees ∧ printed.isSome then printed else none) = .ok none := by
    intro printed
    rw [if_neg (by simp)]
    cases printed <;> rfl
  cases hgross : quietMoney T line.gross_amount with
  | none => exact ⟨_, rfl, none, hnone _⟩
  | some gross =>
    cases hnet : quietMoney T line.net_amount with
    | none => exact ⟨_, rfl, none, hnone _⟩
    | some net =>
      obtain ⟨implied, hsub⟩ := subCents_returns.2 (h.withheld gross net hgross hnet)
      have himplied := subCents_ok.1 hsub
      cases hprinted : printedOf T line with
      | none => exact ⟨_, bind_ok.2 ⟨implied, hsub, rfl⟩, none, rfl⟩
      | some printed =>
        obtain ⟨share, hshare⟩ := checkShare_returns
          (line.invoice_number.getD ("line ".toList ++ decimal (index + 1))) printed implied
          (h.shares gross net hgross hnet (by rw [hprinted]; rfl))
        have hdelta := h.delta gross net printed hgross hnet hprinted
        refine ⟨_, bind_ok.2 ⟨implied, hsub, bind_ok.2 ⟨share, hshare, rfl⟩⟩, ?_⟩
        dsimp only
        by_cases hsame : share.1 = .agrees
        · rw [if_pos ⟨hsame, rfl⟩, differenceOf_returns, Int.sub_self]
          exact inRange_zero
        · rw [if_neg fun e => hsame e.1, differenceOf_returns, himplied]
          exact hdelta fun hadd => hsame ((checkShare_ok himplied hshare).2.2 (.inr hadd))

/-- What a remittance line could not be computed with is among the findings; the invoice's total is read once its
number is not another one's. -/
structure RemittanceReported (T : CaseTables) (index : Nat) (line : RemittanceLine) (invoice : Option InvoiceTotals)
    (findings : List Finding) : Prop where
  deduction : printsDash line.deduction_amount = false → Unreadable T line.deduction_amount →
    Reports findings (linePath index ++ ".deduction_amount".toList)
  gross : Unreadable T line.gross_amount → Reports findings (linePath index ++ ".gross_amount".toList)
  net : Unreadable T line.net_amount → Reports findings (linePath index ++ ".net_amount".toList)
  invoiceTotal : ∀ totals, invoice = some totals →
    (∀ number ∈ line.invoice_number, ∀ billed ∈ totals.invoice_number, sameReference T number billed = true) →
    Unreadable T totals.invoice_total → Reports findings "invoice.invoice_total".toList

theorem checkInvoice_reports {index : Nat} {label : Text} {number : Option Text} {gross : Option Cents}
    {totals : InvoiceTotals}
    (hsame : ∀ n ∈ number, ∀ billed ∈ totals.invoice_number, sameReference T n billed = true)
    (h : Unreadable T totals.invoice_total) :
    Reports (checkInvoice T index label number gross totals) "invoice.invoice_total".toList := by
  have hfound := money_reports h "invoice.invoice_total".toList
  unfold checkInvoice
  dsimp only
  cases hnumber : number with
  | none => exact hfound.mono fun f hf => List.mem_append_left _ hf
  | some n =>
    cases hbilled : totals.invoice_number with
    | none => exact hfound.mono fun f hf => List.mem_append_left _ hf
    | some billed =>
      dsimp only
      rw [if_pos (hsame n hnumber billed hbilled)]
      exact hfound.mono fun f hf => List.mem_append_left _ hf

theorem reconcileLine_reports {lines : List RemittanceLine} {index : Nat} {line : RemittanceLine}
    {invoice : Option InvoiceTotals} {out : LineReconciliation × List Finding}
    (h : reconcileLine T lines index line invoice = .ok out) : RemittanceReported T index line invoice out.2 := by
  obtain ⟨columns, -, delta, -, rfl⟩ := reconcileLine_ok.1 h
  have hline : ∀ f ∈ lineFound T index line, f ∈ lineFound T index line ++ columns.2.2 ++
      (invoice.map (checkInvoice T index (line.invoice_number.getD ("line ".toList ++ decimal (index + 1)))
        line.invoice_number (quietMoney T line.gross_amount))).getD [] :=
    fun f hf => List.mem_append_left _ (List.mem_append_left _ hf)
  refine ⟨fun hdash hd => ?_, fun hg => ?_, fun hn => ?_, ?_⟩
  · refine (money_reports hd (linePath index ++ ".deduction_amount".toList)).mono fun f hf => hline f ?_
    rw [lineFound, if_neg (by simp [hdash])]
    exact List.mem_append_left _ (List.mem_append_left _ hf)
  · refine (money_reports hg (linePath index ++ ".gross_amount".toList)).mono fun f hf => hline f ?_
    exact List.mem_append_left _ (List.mem_append_right _ hf)
  · refine (money_reports hn (linePath index ++ ".net_amount".toList)).mono fun f hf => hline f ?_
    exact List.mem_append_right _ hf
  · rintro totals rfl hsame htotal
    exact (checkInvoice_reports hsame htotal).mono fun f hf => List.mem_append_right _ hf

/-! ## Reconciliation returns -/

/-- `reconcileNotice` returns, with what it could not compute with among its findings. -/
def NoticeReconciles (T : CaseTables) (notice : DeductionNotice) (invoice : Option (List InvoiceLine))
    (po : Option (List PurchaseOrderLine)) (evidence : List Finding) : Prop :=
  ∃ r, reconcileNotice T notice invoice po evidence = .ok r ∧ NoticeReported T notice po r.findings

/-- `reconcileRemittanceLine` returns, with what it could not compute with among its findings. -/
def RemittanceReconciles (T : CaseTables) (input : Option (RemittanceAdvice × Nat)) (invoice : Option InvoiceTotals)
    (evidence : List Finding) : Prop :=
  ∃ r, reconcileRemittanceLine T input invoice evidence = .ok r ∧ ∀ advice index line, input = some (advice, index) →
    advice.lines[index]? = some line → RemittanceReported T index line invoice r.findings

theorem noticeReconciles_iff {notice : DeductionNotice} {invoice : Option (List InvoiceLine)}
    {po : Option (List PurchaseOrderLine)} {evidence : List Finding} :
    NoticeReconciles T notice invoice po evidence ↔ NoticeComputable T notice := by
  rw [← reconcileNotice_returns invoice po evidence]
  constructor
  · rintro ⟨r, h, -⟩
    exact ⟨r, h⟩
  · rintro ⟨r, h⟩
    exact ⟨r, h, reconcileNotice_reports h⟩

theorem reconcileRemittanceLine_some {advice : RemittanceAdvice} {index : Nat} {line : RemittanceLine}
    (hline : advice.lines[index]? = some line) (invoice : Option InvoiceTotals) (evidence : List Finding) :
    reconcileRemittanceLine T (some (advice, index)) invoice evidence =
      reconcileLine T advice.lines index line invoice >>= fun out =>
        .ok ⟨[out.1], out.1.claimedCents, out.1.claimedCents, out.2 ++ evidence,
          !(out.2 ++ evidence).any fun f => f.severity = .blocking⟩ := by
  unfold reconcileRemittanceLine
  simp only [Option.bind_some, hline, Option.map_some]
  cases reconcileLine T advice.lines index line invoice with
  | error e => rfl
  | ok out => rfl

/-- Without a line there is nothing to compute. -/
theorem reconcileRemittanceLine_none {input : Option (RemittanceAdvice × Nat)}
    (h : ∀ advice index, input = some (advice, index) → advice.lines[index]? = none) (invoice : Option InvoiceTotals)
    (evidence : List Finding) : ∃ r, reconcileRemittanceLine T input invoice evidence = .ok r := by
  unfold reconcileRemittanceLine
  cases input with
  | none => exact ⟨_, rfl⟩
  | some entry =>
    have hnone := h entry.1 entry.2 rfl
    simp only [Option.bind_some, hnone, Option.map_none]
    exact ⟨_, rfl⟩

theorem remittanceReconciles_iff {input : Option (RemittanceAdvice × Nat)} {invoice : Option InvoiceTotals}
    {evidence : List Finding} : RemittanceReconciles T input invoice evidence ↔
      ∀ advice index line, input = some (advice, index) → advice.lines[index]? = some line →
        RemittanceComputable T advice.lines index line := by
  constructor
  · rintro ⟨r, h, -⟩ advice index line rfl hline
    rw [reconcileRemittanceLine_some hline] at h
    obtain ⟨out, hout, -⟩ := bind_ok.1 h
    exact computable_of_returns hout
  · intro h
    by_cases hfind : ∃ advice index line, input = some (advice, index) ∧ advice.lines[index]? = some line
    · obtain ⟨advice, index, line, rfl, hline⟩ := hfind
      obtain ⟨out, hout⟩ := returns_of_computable (h advice index line rfl hline) invoice
      refine ⟨_, (reconcileRemittanceLine_some hline invoice evidence).trans (bind_ok.2 ⟨out, hout, rfl⟩), ?_⟩
      intro advice' index' line' hinput hline'
      cases hinput
      obtain rfl := Option.some.inj (hline.symm.trans hline')
      have hreports := reconcileLine_reports hout
      exact ⟨fun hd hu => (hreports.deduction hd hu).mono fun f hf => List.mem_append_left _ hf,
        fun hg => (hreports.gross hg).mono fun f hf => List.mem_append_left _ hf,
        fun hn => (hreports.net hn).mono fun f hf => List.mem_append_left _ hf,
        fun totals ht hs hu => (hreports.invoiceTotal totals ht hs hu).mono fun f hf => List.mem_append_left _ hf⟩
    · have hnone : ∀ advice index, input = some (advice, index) → advice.lines[index]? = none := by
        intro advice index hinput
        cases hline : advice.lines[index]? with
        | none => rfl
        | some line => exact absurd ⟨advice, index, line, hinput, hline⟩ hfind
      obtain ⟨r, hr⟩ : ∃ r, reconcileRemittanceLine T input invoice evidence = .ok r :=
        reconcileRemittanceLine_none hnone invoice evidence
      exact ⟨r, hr, fun advice index line hinput hline => absurd ⟨advice, index, line, hinput, hline⟩ hfind⟩

/-- Both return exactly where no quantity of a priced shortage is negative and every product, difference and sum is
exact. -/
theorem reconciliation_returns_iff (T : CaseTables) :
    (∀ notice invoice po evidence, NoticeReconciles T notice invoice po evidence ↔ NoticeComputable T notice) ∧
    (∀ input invoice evidence, RemittanceReconciles T input invoice evidence ↔
      ∀ advice index line, input = some (advice, index) → advice.lines[index]? = some line →
        RemittanceComputable T advice.lines index line) :=
  ⟨fun _ _ _ _ => noticeReconciles_iff, fun _ _ _ => remittanceReconciles_iff⟩

end

/-! ## A notice that is thrown -/

/-- Five units invoiced, and minus one received. -/
def negativeReceipt : DeductionNotice where
  lines := [{
    sku_upc := some "SKU-1".toList
    qty_invoiced := some ⟨5, by decide⟩
    qty_received := some ⟨-1, by decide⟩
    unit_cost := some "$1.00".toList
    deduction_amount := some "$6.00".toList
    reason_code := none }]
  deduction_total := some "$6.00".toList

/-- The line passes the schema, and its quantity is thrown instead of reported. -/
theorem negative_quantity_throws :
    ¬ ∀ notice invoice po evidence, NoticeReconciles asciiCase notice invoice po evidence := by
  intro h
  have hthrows : (reconcileNotice asciiCase negativeReceipt none none []).isOk = false := by decide +kernel
  obtain ⟨r, hr, -⟩ := h negativeReceipt none none []
  rw [hr] at hthrows
  cases hthrows

end Recouple.Extraction
