import Recouple.Core.Identity
import Recouple.Extraction.Reconcile

/-!
# The lines of a remittance: `packages/pipeline/src/steps.ts` (1434-1607, 1998-2111, 2621-2653)

What a line prints (`printedIdentifier`, `printedMoneyCents`), what it was paid short by
(`shortPayOnLine`), the claim id it builds (`lineClaimIds`), and the line a case was opened from
(`lineOfAdvice`). A line with no invoice number has no key.
-/

namespace Recouple.Pipeline
open Js Extraction

/-- `MAX_IDENTIFIER_LENGTH`. -/
def MAX_IDENTIFIER_LENGTH : Nat := 200

/-- `printedIdentifier`: trimmed, and absent where that is blank or impossibly long. -/
def printedIdentifier (field : Option Text) : Option Text :=
  field.bind fun text =>
    let trimmed := trim text
    if trimmed = [] ∨ utf16Length trimmed > MAX_IDENTIFIER_LENGTH then none else some trimmed

/-- `fieldWasPrinted`. -/
def fieldWasPrinted (field : Option Text) : Bool := field.any fun text => trim text ≠ []

/-- `printsOwnDeduction`: a dash is none. -/
def printsOwnDeduction (line : RemittanceLine) : Bool :=
  fieldWasPrinted line.deduction_amount && !(line.deduction_amount.any printsNoAmount)

/-- How a line's amount was arrived at. -/
inductive AmountBasis
  | printed
  | gross_minus_net
deriving DecidableEq

/-- The short-pay on a line, or why there is none to read. -/
inductive ShortPay
  | cents (cents : Cents) (basis : AmountBasis)
  | problem (problem : Text)
deriving DecidableEq

/-- `lineClaimId`. -/
def lineClaimId (paymentReference : Option Text) (invoiceNumber : Text) : Text :=
  match paymentReference with
  | none => invoiceNumber
  | some reference => reference ++ ':' :: invoiceNumber

/-- `LineKey`. -/
structure LineKey where
  claimId : Text
  legacyClaimId : Option Text
  group : List Nat
  sharesGrossAndNet : Bool
deriving DecidableEq

/-- The invoice a row prints. -/
def invoiceAt (rows : List RemittanceLine) (index : Nat) : Option Text :=
  rows[index]?.bind fun row => printedIdentifier row.invoice_number

section
variable (T : CaseTables)

/-- `printedMoneyCents`. -/
def printedMoneyCents (field : Option Text) : Option Cents :=
  field.bind fun text => if trim text = [] then none else (parseMoneyToCents T text).toOption

/-- `shortPayOnLine`; only the subtraction throws. -/
def shortPayOnLine (line : RemittanceLine) : Except MoneyError ShortPay :=
  if printsOwnDeduction line then
    match printedMoneyCents T line.deduction_amount with
    | none => .ok (.problem "the line prints a deduction amount that will not parse as money")
    | some printed => .ok (.cents printed .printed)
  else
    let grossPrinted := fieldWasPrinted line.gross_amount
    let netPrinted := fieldWasPrinted line.net_amount
    if !grossPrinted || !netPrinted then
      .ok (.problem
        ((if fieldWasPrinted line.deduction_amount then "the line prints a dash for its deduction, and ".toList
            else "the line prints no deduction amount, and ".toList) ++
          (if grossPrinted then "no net paid".toList
            else if netPrinted then "no gross".toList else "neither a gross nor a net paid".toList) ++
          " to subtract one from".toList))
    else
      match printedMoneyCents T line.gross_amount, printedMoneyCents T line.net_amount with
      | some gross, some net => (subCents gross net).map fun cents => .cents cents .gross_minus_net
      | gross, _ =>
        .ok (.problem
          ("the line prints a ".toList ++ (if gross = none then "gross".toList else "net paid".toList) ++
            " that will not parse as money, so the short-pay cannot be computed".toList))

/-- The rows that print an invoice of this key, in page order. -/
def groupOf (rows : List RemittanceLine) (key : Text) : List Nat :=
  (List.range rows.length).filter fun i => (invoiceAt rows i).map (identifierMatchKey T) = some key

/-- The two rows print the same gross and the same net. -/
def sameColumns (gross net : Option Cents) (other : Option RemittanceLine) : Bool :=
  gross.isSome && net.isSome && printedMoneyCents T (other.bind (·.gross_amount)) = gross &&
    printedMoneyCents T (other.bind (·.net_amount)) = net

/-- The key of one row. -/
def lineKey (rows : List RemittanceLine) (paymentReference : Option Text) (index : Nat) (row : RemittanceLine) :
    Option LineKey :=
  (printedIdentifier row.invoice_number).map fun invoice =>
    let group := groupOf T rows (identifierMatchKey T invoice)
    let base := lineClaimId paymentReference invoice
    if group.length = 1 then ⟨base, none, group, false⟩
    else
      let gross := printedMoneyCents T row.gross_amount
      let net := printedMoneyCents T row.net_amount
      { claimId := base ++ '#' :: decimal (group.idxOf index + 1)
        legacyClaimId := some base
        group := group
        sharesGrossAndNet := group.any fun other => other ≠ index && sameColumns T gross net rows[other]? }

/-- `lineClaimIds`: every row's claim key. -/
def lineClaimIds (rows : List RemittanceLine) (paymentReference : Option Text) : List (Option LineKey) :=
  rows.mapIdx (lineKey T rows paymentReference)

/-- `lineShortPays`: a row that shares its invoice's gross and net and prints no share of its own is a
problem, not a subtraction. -/
def lineShortPays (rows : List RemittanceLine) (keys : List (Option LineKey)) : Except MoneyError (List ShortPay) :=
  rows.zipIdx.mapM fun (row, index) =>
    if (keys[index]?.join.any (·.sharesGrossAndNet)) && !printsOwnDeduction row then
      .ok (.problem
        ("the line repeats its invoice's gross and net alongside another line of this advice ".toList ++
          "and prints no deduction of its own, so its share of the short-pay cannot be told".toList))
    else shortPayOnLine T row

end

/-- `legacyOwner`: the first line of the group whose short-pay is the amount. -/
def legacyOwner (group : List Nat) (shortPays : List ShortPay) (amountCents : Int) : Option Nat :=
  group.find? fun i =>
    match shortPays[i]? with
    | some (.cents cents _) => cents.val = amountCents
    | _ => false

/-- What a case keeps of the line that opened it. -/
structure LineCase where
  claimId : Option Text
  deductionAmountCents : Option Int
deriving DecidableEq

section
variable (T : CaseTables)

/-- One advice of `remittanceLineOfCase`: the row whose key is the case's, else the row that owns it. -/
def lineOfAdvice (advice : RemittanceAdvice) (record : LineCase) : Except MoneyError (Option Nat) := do
  let keys := lineClaimIds T advice.lines (printedIdentifier advice.payment_reference)
  match keys.findIdx? fun key => key.map (·.claimId) = record.claimId with
  | some index => .ok (some index)
  | none =>
    let shortPays ← lineShortPays T advice.lines keys
    match (keys.filterMap id).find? (fun key => key.legacyClaimId = record.claimId), record.deductionAmountCents with
    | some legacy, some amount => .ok (legacyOwner legacy.group shortPays amount)
    | _, _ => .ok none

/-- The first of the advices that has the case's line, and which line it is. -/
def lineOfAdvices (remittances : List RemittanceAdvice) (record : LineCase) :
    Except MoneyError (Option (RemittanceAdvice × Nat)) :=
  match remittances with
  | [] => .ok none
  | advice :: rest => do
    match ← lineOfAdvice T advice record with
    | some index => .ok (some (advice, index))
    | none => lineOfAdvices rest record

end

end Recouple.Pipeline
