import Recouple.Core.PrintedMoney

/-!
# Reconciling a remittance line: `packages/extraction/src/reconcile.ts` (154-184, 637-858)

A case that a remittance line opened is that line's short-pay. `reconcileRemittanceLine` checks the line
against its own columns, against the lines that repeat its invoice's gross and net (`sharingInvoice`), and
against the invoice. The checks of shipments and messages that follow add findings and nothing else: they
are the argument `evidence`.

A field is the text its `value` holds, `none` where the document does not carry it (`valueOf`).
-/

namespace Recouple.Extraction
open Js

/-- The fields of a remittance line. -/
structure RemittanceLine where
  invoice_number : Option Text
  gross_amount : Option Text
  net_amount : Option Text
  deduction_amount : Option Text
  reason_code : Option Text
deriving DecidableEq

structure RemittanceAdvice where
  payer_name : Option Text
  payment_reference : Option Text
  payment_date : Option Text
  lines : List RemittanceLine

/-- The fields of an invoice that a remittance line is checked against. -/
structure InvoiceTotals where
  invoice_number : Option Text
  invoice_total : Option Text

inductive FindingSeverity
  | blocking
  | warning
  | supports_dispute
  | info
deriving DecidableEq

structure Finding where
  code : Text
  severity : FindingSeverity
  message : Text
  fieldPath : Option Text
deriving DecidableEq

/-- `'matches' | 'differs' | 'not_checkable'`. -/
inductive LineVerdict
  | agrees
  | differs
  | not_checkable
deriving DecidableEq

structure LineReconciliation where
  sku : Text
  reasonCode : Text
  claimedCents : Option Cents
  expectedShortageCents : Option Cents
  deltaCents : Option Cents
  verdict : LineVerdict
  grossCents : Option Cents
  netCents : Option Cents

structure Reconciliation where
  lines : List LineReconciliation
  claimedTotalCents : Option Cents
  lineSumCents : Option Cents
  findings : List Finding
  internallyConsistent : Bool

section
variable (T : CaseTables)

/-- `money`: an unreadable field is a finding, not a throw. -/
def money (field : Option Text) (fieldPath : Text) : Option Cents × List Finding :=
  match field with
  | none => (none, [])
  | some text =>
    match parseMoneyToCents T text with
    | .ok cents => (some cents, [])
    | .error e =>
      (none, [⟨"unparseable_amount", .blocking,
        "could not read ".toList ++ quote text ++ " as an amount: ".toList ++ e.message, some fieldPath⟩])

/-- `quietMoney`. -/
def quietMoney (field : Option Text) : Option Cents := field.bind fun text => (parseMoneyToCents T text).toOption

/-- `sameReference`: two printed references to the same thing. -/
def sameReference (a b : Text) : Bool := T.toLowerCase (trim a) = T.toLowerCase (trim b)

/-- The line prints this invoice, this gross and this net. -/
def printsSame (invoice : Text) (gross net : Cents) (other : RemittanceLine) : Bool :=
  match other.invoice_number with
  | none => false
  | some theirs =>
    sameReference T theirs invoice && quietMoney T other.gross_amount = some gross &&
      quietMoney T other.net_amount = some net

/-- `sharingInvoice`: the other lines that repeat the line's invoice with this gross and net. -/
def sharingInvoice (lines : List RemittanceLine) (index : Nat) (gross net : Cents) : List Nat :=
  match lines[index]?.bind (·.invoice_number) with
  | none => []
  | some invoice =>
    (List.range lines.length).filter fun i => i ≠ index && lines[i]?.any (printsSame T invoice gross net)

/-- `printsDash`. -/
def printsDash (field : Option Text) : Bool := field.any printsNoAmount

/-- The amount one line of a shared invoice adds: a dash deducted nothing. -/
def sharedDeduction (line : Option RemittanceLine) : Option Cents :=
  if printsDash (line.bind (·.deduction_amount)) then some ZERO
  else quietMoney T (line.bind (·.deduction_amount))

/-- `sharedDeductions`: `none` where one of them is unreadable. -/
def sharedDeductions (lines : List RemittanceLine) (indices : List Nat) : Except MoneyError (Option Cents) :=
  match indices.mapM fun i => sharedDeduction T lines[i]? with
  | none => .ok none
  | some amounts => (sumCents amounts).map some

/-- The verdict on a line that prints a gross and a net, and what is found. -/
def checkShare (lines : List RemittanceLine) (index : Nat) (label : Text) (printed : Option Cents)
    (gross net implied : Cents) : Except MoneyError (LineVerdict × List Finding) :=
  let path := "lines[".toList ++ decimal index ++ [']']
  let siblings := sharingInvoice T lines index gross net
  let columns := label ++ ": ".toList ++ formatCents gross ++ " gross less ".toList ++ formatCents net ++
    " paid is ".toList ++ formatCents implied ++ " withheld".toList
  match printed with
  | none => .ok (.not_checkable, [])
  | some printed =>
    if siblings = [] then
      if printed = implied then .ok (.agrees, [])
      else
        .ok (.differs, [⟨"remittance_line_does_not_add_up", .blocking,
          columns ++ ", but the line says ".toList ++ formatCents printed ++
            " was deducted. The line and its own columns cannot both be right".toList, some path⟩])
    else do
      let count := decimal (siblings.length + 1)
      let shared ← sharedDeductions T lines (index :: siblings)
      if shared = some implied then
        .ok (.agrees, [⟨"remittance_invoice_shared", .info,
          label ++ ": ".toList ++ count ++ " lines of this remittance share the invoice's ".toList ++
            formatCents gross ++ " gross and ".toList ++ formatCents net ++
            " paid, and their deductions add up to the ".toList ++ formatCents implied ++
            " withheld; this case is the ".toList ++ formatCents printed ++ " of it".toList, some path⟩])
      else
        .ok (.differs, [⟨"remittance_line_does_not_add_up", .blocking,
          columns ++ ", but the ".toList ++ count ++ " lines sharing this invoice ".toList ++
            (match shared with
              | none => "do not all print a readable deduction".toList
              | some shared => "deduct ".toList ++ formatCents shared ++ " between them".toList) ++
            ". The lines and their own columns cannot all be right".toList, some path⟩])

/-- What a line's columns say: the subtraction, the verdict and what is found. -/
def checkColumns (lines : List RemittanceLine) (index : Nat) (label : Text) (dash : Bool)
    (printed gross net : Option Cents) : Except MoneyError (Option Cents × LineVerdict × List Finding) :=
  match gross, net with
  | some gross, some net => do
    let implied ← subCents gross net
    let dashed :=
      if dash && decide (0 < implied.val) then
        [⟨"remittance_line_dash_but_short_paid", .warning,
          label ++ ": the line prints a dash for its deduction, but ".toList ++ formatCents gross ++
            " gross less ".toList ++ formatCents net ++ " paid is ".toList ++ formatCents implied ++
            " withheld; this case is the subtraction".toList,
          some ("lines[".toList ++ decimal index ++ "].deduction_amount".toList)⟩]
      else []
    let (verdict, found) ← checkShare T lines index label printed gross net implied
    .ok (some implied, verdict, dashed ++ found)
  | _, _ => .ok (none, .not_checkable, [])

/-- The findings of a line beside the invoice of its case. -/
def checkInvoice (index : Nat) (label : Text) (invoiceNumber : Option Text) (gross : Option Cents)
    (invoice : InvoiceTotals) : List Finding :=
  let totals :=
    let (total, found) := money T invoice.invoice_total "invoice.invoice_total"
    found ++
      match gross, total with
      | some gross, some total =>
        if gross = total then []
        else
          [⟨"gross_differs_from_invoice", .warning,
            label ++ ": the remittance puts the invoice at ".toList ++ formatCents gross ++
              " gross, but the invoice totals ".toList ++ formatCents total ++
              " — a difference the deduction on this line does not account for".toList,
            some ("lines[".toList ++ decimal index ++ "].gross_amount".toList)⟩]
      | _, _ => []
  match invoiceNumber, invoice.invoice_number with
  | some number, some billed =>
    if sameReference T number billed then totals
    else
      [⟨"invoice_number_mismatch", .warning,
        "the remittance line pays invoice ".toList ++ number ++ " but the invoice on this case is ".toList ++
          billed ++ ": check this evidence belongs to this claim".toList,
        some ("lines[".toList ++ decimal index ++ "].invoice_number".toList)⟩]
  | _, _ => totals

/-- By how much the printed deduction differs from the expected one. -/
def differenceOf (printed expected : Option Cents) : Except MoneyError (Option Cents) :=
  match printed, expected with
  | some printed, some expected => (subCents printed expected).map some
  | _, _ => .ok none

/-- The line of a case against its own columns and its invoice: the row and what is found. -/
def reconcileLine (lines : List RemittanceLine) (index : Nat) (line : RemittanceLine)
    (invoice : Option InvoiceTotals) : Except MoneyError (LineReconciliation × List Finding) := do
  let path := "lines[".toList ++ decimal index ++ [']']
  let label := line.invoice_number.getD ("line ".toList ++ decimal (index + 1))
  let dash := printsDash line.deduction_amount
  let (printed, f₁) := if dash then (none, []) else money T line.deduction_amount (path ++ ".deduction_amount".toList)
  let (gross, f₂) := money T line.gross_amount (path ++ ".gross_amount".toList)
  let (net, f₃) := money T line.net_amount (path ++ ".net_amount".toList)
  let (implied, verdict, f₄) ← checkColumns T lines index label dash printed gross net
  let claimed := printed.or implied
  let expected := if verdict = .agrees ∧ printed.isSome then printed else implied
  let delta ← differenceOf printed expected
  let f₅ := (invoice.map (checkInvoice T index label line.invoice_number gross)).getD []
  .ok (⟨label, line.reason_code.getD [], claimed, expected, delta, verdict, gross, net⟩,
    f₁ ++ f₂ ++ f₃ ++ f₄ ++ f₅)

/-- `reconcileRemittanceLine`. -/
def reconcileRemittanceLine (input : Option (RemittanceAdvice × Nat)) (invoice : Option InvoiceTotals)
    (evidence : List Finding) : Except MoneyError Reconciliation := do
  let (lines, found) ←
    match input.bind fun (advice, index) => advice.lines[index]?.map fun line => (advice, index, line) with
    | none =>
      .ok ([], [⟨"remittance_line_not_found", .blocking,
        "no line on the remittance is the one this case was opened from, so there is no ".toList ++
          "short-pay to reconcile; the evidence below was still checked".toList, none⟩])
    | some (advice, index, line) => do
      let (row, found) ← reconcileLine T advice.lines index line invoice
      .ok ([row], found)
  let total := lines.head?.bind (·.claimedCents)
  let findings := found ++ evidence
  .ok ⟨lines, total, total, findings, !findings.any fun f => f.severity = .blocking⟩

end

end Recouple.Extraction
