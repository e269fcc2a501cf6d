import Mathlib
import Recouple.Core.Ledger

/-!
# Short-pay detection: `packages/core-domain/src/short-pay.ts`

`detectShortPays` (179-353) joins three lists of rows. Pass 1 looks at the invoices alone, pass 2 runs
over every application of every payment, then of every credit, and adds it to the tally of the
invoice it names, pass 3 looks at each invoice beside its tally. A sum that leaves the safe-integer
range throws out of whichever pass it happens in.

The `Map` of tallies is the function that answers `emptyTally()` for an absent key, which is how pass
3 reads it. Row objects are compared by identity in pass 2 (`!== payment`) and by contents here: two
adjacent rows alike in everything are kept once instead of twice, and whatever reads the list of rows
(references, memos, the last date) reads the same from both.
-/

namespace Recouple
open Js FirstSeen

/-! ## What is reported -/

inductive GapStatus | «open» | credited | mixed
deriving DecidableEq

structure ShortPayCandidate where
  invoiceExternalId : Text
  invoiceNumber : Text
  customerExternalId : Text
  customerName : Text
  invoiceTotalCents : Cents
  appliedPaymentsCents : Cents
  appliedCreditsCents : Cents
  gapCents : Cents
  gapStatus : GapStatus
  paymentReferences : List Text
  paymentMemos : List Text
  creditMemos : List Text
  lastPaymentOn : Option Text
deriving DecidableEq

/-- `LEDGER_ANOMALY_KINDS`. -/
inductive LedgerAnomalyKind
  | overapplied
  | application_to_unknown_invoice
  | negative_amount
  | currency_mismatch
deriving DecidableEq

structure LedgerAnomaly where
  invoiceExternalId : Text
  kind : LedgerAnomalyKind
  transactionExternalId : Option Text
  detail : Text
deriving DecidableEq

structure ShortPayReport where
  candidates : List ShortPayCandidate
  anomalies : List LedgerAnomaly
  invoicesExamined : Nat
deriving DecidableEq

/-! ## Tallies -/

structure InvoiceTally where
  paymentsCents : Cents
  creditsCents : Cents
  payments : List LedgerPayment
  credits : List LedgerCredit
  untrustworthy : Bool
deriving DecidableEq

def emptyTally : InvoiceTally := ⟨ZERO, ZERO, [], [], false⟩

/-- A row of pass 2. The loop over payments and the loop over credits are one loop but for the word
they print and the sum they add to. -/
inductive Row
  | payment (payment : LedgerPayment)
  | credit (credit : LedgerCredit)
deriving DecidableEq

def Row.word : Row → Text
  | .payment _ => "payment"
  | .credit _ => "credit"

def Row.externalId : Row → Text
  | .payment p => p.externalId
  | .credit c => c.externalId

def Row.appliedTo : Row → List LedgerApplication
  | .payment p => p.appliedTo
  | .credit c => c.appliedTo

/-- One turn of pass 2's inner loop: an application and the row it stands in. -/
structure Applied where
  row : Row
  application : LedgerApplication
deriving DecidableEq

/-- The invoice the turn is about. -/
def Applied.names (e : Applied) : Text := e.application.invoiceExternalId

def Row.turns (r : Row) : List Applied := r.appliedTo.map (Applied.mk r)

/-- `if (rows[rows.length - 1] !== row) rows.push(row)`. -/
def pushOnce {α : Type} [DecidableEq α] (rows : List α) (row : α) : List α :=
  if rows.getLast? = some row then rows else rows ++ [row]

/-- What a turn does to the tally of an invoice the ledger holds (260-265, 290-293). -/
def InvoiceTally.add (tally : InvoiceTally) (e : Applied) : Except MoneyError InvoiceTally :=
  let untrustworthy := tally.untrustworthy || decide (e.application.amountCents.val < 0)
  match e.row with
  | .payment p => do
    let sum ← addCents tally.paymentsCents e.application.amountCents
    .ok { tally with untrustworthy, paymentsCents := sum, payments := pushOnce tally.payments p }
  | .credit c => do
    let sum ← addCents tally.creditsCents e.application.amountCents
    .ok { tally with untrustworthy, creditsCents := sum, credits := pushOnce tally.credits c }

/-! ## The three passes -/

/-- The most frequent currency, ties to the alphabetically first. -/
def dominantCurrency (invoices : List LedgerInvoice) : Option Text :=
  let currencies := invoices.map (·.currency)
  let counts := (firstSeen currencies).map fun c => (c, currencies.count c)
  let better (best : Option Text × Nat) (entry : Text × Nat) : Bool :=
    entry.2 > best.2 || (entry.2 == best.2 && best.1.any fun b => decide (textLt entry.1 b))
  (counts.foldl (fun best entry => if better best entry then (some entry.1, entry.2) else best)
    (none, 0)).1

/-- `byExternalId`, in insertion order. -/
def ledgerOf (invoices : List LedgerInvoice) : List LedgerInvoice := firstBy (·.externalId) invoices

/-- `byExternalId.get(id)`. -/
def lookup (ledger : List LedgerInvoice) (id : Text) : Option LedgerInvoice :=
  ledger.find? fun invoice => invoice.externalId = id

/-- An anomaly about the invoice itself. -/
def negativeAmount (invoice : LedgerInvoice) (what : Text) (amount : Cents) : LedgerAnomaly where
  invoiceExternalId := invoice.externalId
  kind := .negative_amount
  transactionExternalId := none
  detail := "invoice ".toList ++ invoice.invoiceNumber ++ " has a negative ".toList ++ what ++
    " of ".toList ++ formatCents amount

def currencyMismatch (invoice : LedgerInvoice) (currency : Text) : LedgerAnomaly where
  invoiceExternalId := invoice.externalId
  kind := .currency_mismatch
  transactionExternalId := none
  detail := "invoice ".toList ++ invoice.invoiceNumber ++ " is in ".toList ++ invoice.currency ++
    "; the rest of this window is in ".toList ++ currency

/-- Pass 1, one invoice. -/
def invoiceAnomalies (currency : Option Text) (invoice : LedgerInvoice) : List LedgerAnomaly :=
  (if invoice.totalCents.val < 0 then [negativeAmount invoice "total" invoice.totalCents] else []) ++
  (if invoice.balanceCents.val < 0 then [negativeAmount invoice "balance" invoice.balanceCents] else []) ++
  match currency with
  | some c => if invoice.currency ≠ c then [currencyMismatch invoice c] else []
  | none => []

/-- `payment P1 applies $5.00 to invoice I1`. -/
def Applied.detail (e : Applied) : Text :=
  e.row.word ++ ' ' :: e.row.externalId ++ " applies ".toList ++
    formatCents e.application.amountCents ++ " to invoice ".toList ++ e.names

structure Pass2 where
  anomalies : List LedgerAnomaly
  tallies : Text → InvoiceTally

/-- An anomaly about one application. -/
def Applied.anomaly (e : Applied) (kind : LedgerAnomalyKind) (detail : Text) : LedgerAnomaly where
  invoiceExternalId := e.names
  kind := kind
  transactionExternalId := some e.row.externalId
  detail := detail

/-- The anomalies of one turn: a negative amount, and an invoice the ledger did not return. -/
def turnAnomalies (known : Bool) (e : Applied) : List LedgerAnomaly :=
  (if e.application.amountCents.val < 0 then [e.anomaly .negative_amount e.detail] else []) ++
  (if known then []
    else [e.anomaly .application_to_unknown_invoice
      (e.detail ++ ", which the ledger did not return".toList)])

/-- Pass 2, one turn (240-266, 270-294). -/
def applyTurn (ledger : List LedgerInvoice) (s : Pass2) (e : Applied) : Except MoneyError Pass2 :=
  let known := (lookup ledger e.names).isSome
  let anomalies := s.anomalies ++ turnAnomalies known e
  if known then do
    let tally ← (s.tallies e.names).add e
    .ok { anomalies, tallies := Function.update s.tallies e.names tally }
  else .ok { s with anomalies }

/-- Pass 2, one row. -/
def applyRow (ledger : List LedgerInvoice) (s : Pass2) (r : Row) : Except MoneyError Pass2 :=
  r.turns.foldlM (applyTurn ledger) s

/-- Verbatim, in first-seen order, the blanks and the repeats taken out. -/
def dedupeNonEmpty (values : List (Option Text)) : List Text :=
  firstSeen ((values.filterMap id).filter fun value => decide (trim value ≠ []))

/-- `if (last === undefined || date > last) last = date`. -/
def later (last : Option Text) (date : Text) : Option Text :=
  match last with
  | none => some date
  | some d => if textLt d date then some date else some d

/-- The loop over `tally.payments` that leaves the latest date (327-332). -/
def lastPaymentOn (payments : List LedgerPayment) : Option Text :=
  (payments.map (·.receivedOn)).foldl later none

def gapStatusOf (invoice : LedgerInvoice) (tally : InvoiceTally) (gapCents : Cents) : GapStatus :=
  if invoice.balanceCents = gapCents then .open
  else if gapCents.val ≤ tally.creditsCents.val then .credited
  else .mixed

/-- What pass 3 does with one invoice: nothing, an anomaly, or a candidate. -/
inductive Verdict
  | passedOver
  | anomaly (anomaly : LedgerAnomaly)
  | candidate (candidate : ShortPayCandidate)

def Verdict.candidate? : Verdict → Option ShortPayCandidate
  | .candidate c => some c
  | _ => none

def Verdict.anomaly? : Verdict → Option LedgerAnomaly
  | .anomaly a => some a
  | _ => none

def overappliedAnomaly (invoice : LedgerInvoice) (applied : Cents) : LedgerAnomaly where
  invoiceExternalId := invoice.externalId
  kind := .overapplied
  transactionExternalId := none
  detail := "invoice ".toList ++ invoice.invoiceNumber ++ " totals ".toList ++
    formatCents invoice.totalCents ++ " but ".toList ++ formatCents applied ++
    " is applied to it".toList

/-- Pass 3, one invoice (299-351). -/
def verdictOf (invoice : LedgerInvoice) (tally : InvoiceTally) : Except MoneyError Verdict :=
  if tally.untrustworthy ∨ invoice.totalCents.val < 0 then .ok .passedOver
  else do
    let applied ← addCents tally.paymentsCents tally.creditsCents
    if applied.val > invoice.totalCents.val then
      .ok (.anomaly (overappliedAnomaly invoice applied))
    else if tally.paymentsCents.val ≤ 0 then .ok .passedOver
    else if tally.paymentsCents.val ≥ invoice.totalCents.val then .ok .passedOver
    else do
      let gapCents ← subCents invoice.totalCents tally.paymentsCents
      .ok (.candidate
        { invoiceExternalId := invoice.externalId
          invoiceNumber := invoice.invoiceNumber
          customerExternalId := invoice.customerExternalId
          customerName := invoice.customerName
          invoiceTotalCents := invoice.totalCents
          appliedPaymentsCents := tally.paymentsCents
          appliedCreditsCents := tally.creditsCents
          gapCents
          gapStatus := gapStatusOf invoice tally gapCents
          paymentReferences := dedupeNonEmpty (tally.payments.map (·.reference))
          paymentMemos := dedupeNonEmpty (tally.payments.map (·.memo))
          creditMemos := dedupeNonEmpty (tally.credits.map (·.memo))
          lastPaymentOn := lastPaymentOn tally.payments })

structure Pass3 where
  candidates : List ShortPayCandidate
  anomalies : List LedgerAnomaly

/-- Pass 3, one turn of its loop. -/
def settleInvoice (tallies : Text → InvoiceTally) (s : Pass3) (invoice : LedgerInvoice) :
    Except MoneyError Pass3 := do
  let verdict ← verdictOf invoice (tallies invoice.externalId)
  .ok { candidates := s.candidates ++ verdict.candidate?.toList
        anomalies := s.anomalies ++ verdict.anomaly?.toList }

/-- The comparison the candidates are sorted by: gap descending, number, then external id. -/
def compareCandidates (a b : ShortPayCandidate) : Int :=
  if a.gapCents ≠ b.gapCents then b.gapCents.val - a.gapCents.val
  else if a.invoiceNumber ≠ b.invoiceNumber then (if textLt a.invoiceNumber b.invoiceNumber then -1 else 1)
  else if a.invoiceExternalId = b.invoiceExternalId then 0
  else if textLt a.invoiceExternalId b.invoiceExternalId then -1 else 1

/-- `a` may stand before `b`. -/
def candidateLe (a b : ShortPayCandidate) : Prop := compareCandidates a b ≤ 0

instance : DecidableRel candidateLe := fun a b => inferInstanceAs (Decidable (compareCandidates a b ≤ 0))

def detectShortPays (invoices : List LedgerInvoice) (payments : List LedgerPayment)
    (credits : List LedgerCredit) : Except MoneyError ShortPayReport := do
  let ledger := ledgerOf invoices
  let currency := dominantCurrency ledger
  let start : Pass2 := ⟨ledger.flatMap (invoiceAnomalies currency), fun _ => emptyTally⟩
  let paid ← payments.foldlM (fun s p => applyRow ledger s (.payment p)) start
  let tallied ← credits.foldlM (fun s c => applyRow ledger s (.credit c)) paid
  let settled ← ledger.foldlM (settleInvoice tallied.tallies) ⟨[], tallied.anomalies⟩
  .ok { candidates := settled.candidates.insertionSort candidateLe
        anomalies := settled.anomalies
        invoicesExamined := invoices.length }

end Recouple
