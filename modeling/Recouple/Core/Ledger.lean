import Recouple.Core.Money
import Recouple.Lib.FirstSeen

/-!
# The ledger's rows: `packages/core-domain/src/ledger.ts`

Dates are ISO `YYYY-MM-DD` strings, which sort in date order; amounts are `Cents`.
-/

namespace Recouple
open Js

inductive AccountingSourceKind | qbo | netsuite | xero
deriving DecidableEq

structure LedgerApplication where
  invoiceExternalId : Text
  amountCents : Cents
deriving DecidableEq

structure LedgerInvoice where
  sourceKind : AccountingSourceKind
  externalId : Text
  invoiceNumber : Text
  customerExternalId : Text
  customerName : Text
  issuedOn : Text
  dueOn : Option Text
  totalCents : Cents
  balanceCents : Cents
  currency : Text
deriving DecidableEq

structure LedgerPayment where
  sourceKind : AccountingSourceKind
  externalId : Text
  customerExternalId : Text
  receivedOn : Text
  totalCents : Cents
  reference : Option Text
  memo : Option Text
  appliedTo : List LedgerApplication
deriving DecidableEq

structure LedgerCredit where
  sourceKind : AccountingSourceKind
  externalId : Text
  customerExternalId : Text
  issuedOn : Text
  totalCents : Cents
  memo : Option Text
  appliedTo : List LedgerApplication
deriving DecidableEq

/-- What the applications of one row put against an invoice. -/
def rowSum (id : Text) (applications : List LedgerApplication) : Int :=
  ((applications.filter fun a => a.invoiceExternalId = id).map (·.amountCents.val)).sum

@[simp] theorem rowSum_nil (id : Text) : rowSum id [] = 0 := rfl

theorem rowSum_append (id : Text) (l l' : List LedgerApplication) :
    rowSum id (l ++ l') = rowSum id l + rowSum id l' := by
  simp [rowSum]

theorem rowSum_perm {id : Text} {l l' : List LedgerApplication} (h : l.Perm l') :
    rowSum id l = rowSum id l' := ((h.filter _).map _).sum_eq

/-- The three lists `detectShortPays` takes (`SettlementLedger`, settlement.ts:45-49; the same three
fields as `LedgerInvoiceHistories`). -/
structure SettlementLedger where
  invoices : List LedgerInvoice
  payments : List LedgerPayment
  credits : List LedgerCredit
deriving DecidableEq

/-- What the ledger says of some invoices, whatever the dates. -/
abbrev LedgerInvoiceHistories := SettlementLedger

end Recouple
