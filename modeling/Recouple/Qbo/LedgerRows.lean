import Recouple.Core.Ledger
import Recouple.Qbo.PaymentSplit

/-!
# QuickBooks rows as ledger rows: `packages/qbo/src/map.ts` (28-156), `reader.ts` (69-126)

| here | there |
| --- | --- |
| `readOptionalString`, `readIsoDate`, `readOptionalIsoDate`, `readRef` | the accessors of `reader.ts` |
| `toLedgerInvoice`, `toLedgerPayment`, `toLedgerCredit` | 34, 67, 85 |
| `resolveCreditApplications` | 121: the payments' credits, gathered by credit memo |
| `linkedTxnIds` | 146 |

`parsePrintedDate` of core-domain is a parameter: the day it reads, or the message it throws.
-/

namespace Recouple.Qbo
open Js

/-- A field that is absent, `null` or `''` is not there. -/
def isAbsent : Option Value → Bool
  | none | some .null | some (.str []) => true
  | _ => false

def readOptionalString (source : JsonObject) (key : String) (path : Text) : Except Thrown (Option Text) :=
  match field source key with
  | some (.str t) => .ok (if t = [] then none else some t)
  | value => if isAbsent value then .ok none else unexpected "a string or nothing".toList (member path key) value

/-- `/^\d{4}-\d{2}-\d{2}$/` -/
def isIsoShape : Text → Bool
  | [a, b, c, d, '-', e, f, '-', g, h] => [a, b, c, d, e, f, g, h].all Char.isDigit
  | _ => false

/-- `readRef` -/
def readRef (source : JsonObject) (key : String) (path : Text) : Except Thrown JsonObject :=
  match field source key with
  | none => malformed ("expected ".toList ++ member path key ++ " to be present".toList) (member path key)
  | value => readObject value (member path key)

/-- `linkedTxnIds` -/
def linkedTxnIds (row : JsonObject) (txnType : Text) (path : Text) : Except Thrown (List Text) := do
  let links ← readArray (field row "LinkedTxn") (member path "LinkedTxn")
  let ids ← links.zipIdx.mapM fun (rawLink, index) => do
    let linkPath := element (member path "LinkedTxn") index
    let link ← readObject (some rawLink) linkPath
    if (← readString link "TxnType" linkPath) = txnType then
      let id ← readString link "TxnId" linkPath
      return some id
    else return none
  return ids.reduceOption

section
variable (T : CaseTables) (parsePrintedDate : Text → Except Text Text)

def readIsoDate (source : JsonObject) (key : String) (path : Text) : Except Thrown Text := do
  let value ← readString source key path
  if !isIsoShape value then unexpected "YYYY-MM-DD".toList (member path key) (some (.str value))
  else
    match parsePrintedDate value with
    | .ok day => return day
    | .error message =>
      malformed ("date at ".toList ++ member path key ++ " is not a calendar day: ".toList ++ message) (member path key)

def readOptionalIsoDate (source : JsonObject) (key : String) (path : Text) : Except Thrown (Option Text) :=
  if isAbsent (field source key) then .ok none else (readIsoDate parsePrintedDate source key path).map some

def toLedgerInvoice (row : JsonObject) (path : Text) : Except Thrown LedgerInvoice := do
  let customer ← readRef row "CustomerRef" path
  let currency ← readRef row "CurrencyRef" path
  let dueOn ← readOptionalIsoDate parsePrintedDate row "DueDate" path
  return { sourceKind := .qbo
           externalId := ← readString row "Id" path
           invoiceNumber := ← readString row "DocNumber" path
           customerExternalId := ← readString customer "value" (member path "CustomerRef")
           customerName := ← readString customer "name" (member path "CustomerRef")
           issuedOn := ← readIsoDate parsePrintedDate row "TxnDate" path
           dueOn := dueOn
           totalCents := ← qboAmountToCents T (field row "TotalAmt") (member path "TotalAmt")
           balanceCents := ← qboAmountToCents T (field row "Balance") (member path "Balance")
           currency := ← readString currency "value" (member path "CurrencyRef") }

def toLedgerPayment (row : JsonObject) (path : Text) : Except Thrown LedgerPayment := do
  let customer ← readRef row "CustomerRef" path
  let reference ← readOptionalString row "PaymentRefNum" path
  let memo ← readOptionalString row "PrivateNote" path
  let applications ← readPaymentApplications T row path
  return { sourceKind := .qbo
           externalId := ← readString row "Id" path
           customerExternalId := ← readString customer "value" (member path "CustomerRef")
           receivedOn := ← readIsoDate parsePrintedDate row "TxnDate" path
           totalCents := applications.totalCents
           reference := reference
           memo := memo
           appliedTo := applications.cash }

def toLedgerCredit (applications : Credits) (row : JsonObject) (path : Text) : Except Thrown LedgerCredit := do
  let customer ← readRef row "CustomerRef" path
  let memo ← readOptionalString row "PrivateNote" path
  let externalId ← readString row "Id" path
  return { sourceKind := .qbo
           externalId := externalId
           customerExternalId := ← readString customer "value" (member path "CustomerRef")
           issuedOn := ← readIsoDate parsePrintedDate row "TxnDate" path
           totalCents := ← qboAmountToCents T (field row "TotalAmt") (member path "TotalAmt")
           memo := memo
           appliedTo := (JsonTree.get applications externalId).getD [] }

/-- A payment's credit, added to what is known of it. -/
def addApplications (byCredit : Credits) (entry : Text × List LedgerApplication) : Credits :=
  JsonTree.put entry.1 ((JsonTree.get byCredit entry.1).getD [] ++ entry.2) byCredit

/-- `resolveCreditApplications` -/
def resolveCreditApplications (paymentRows : List JsonObject) (pathFor : Nat → Text) : Except Thrown Credits :=
  paymentRows.zipIdx.foldlM (fun byCredit (row, index) => do
    let applications ← readPaymentApplications T row (pathFor index)
    return applications.credits.foldl addApplications byCredit) []

end

end Recouple.Qbo
