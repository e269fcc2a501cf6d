import Recouple.Core.Books
import Recouple.Lib.Json

/-!
# The extract of a short-paid invoice: `packages/core-domain/src/ledger-extract.ts`

`buildLedgerExtract` (152-237) writes a candidate and the rows behind it as one JSON document. The rows
are sorted by external id; the candidate's own lists of references and memos are copied in the order
`detectShortPays` saw them. SHA-256 stands outside the repository: it is any function of the bytes.
-/

namespace Recouple
open Js FirstSeen KeyedFold

structure LedgerExtract where
  bytes : ByteArray
  mimeType : Text
  filename : Text
  sha256 : Text

/-- Every `LedgerExtractError`: a candidate that is not the invoice's, or an amount that is no cents. -/
inductive LedgerExtractError
  | notTheInvoice (invoiceExternalId candidateExternalId : Text)
  | notCents (field : Text) (value : Int) (cause : MoneyError)
deriving DecidableEq

def LedgerExtractError.message : LedgerExtractError → Text
  | .notTheInvoice i c =>
    "invoice ".toList ++ i ++ " is not candidate invoice ".toList ++ c
  | .notCents field value cause =>
    field ++ " is not integer cents: ".toList ++ decimalInt value ++ " (".toList ++ cause.message ++ [')']

/-- Whether a filename keeps the character. -/
def filenameChar (c : Char) : Bool :=
  ('A' ≤ c && c ≤ 'Z') || ('a' ≤ c && c ≤ 'z') || ('0' ≤ c && c ≤ '9') || c == '.' || c == '_' || c == '-'

/-- `text.replace(/[^A-Za-z0-9._-]+/g, '-')`, `inRun` when the run at hand is already written. -/
def dashRuns : Bool → Text → Text
  | _, [] => []
  | inRun, c :: cs =>
    if filenameChar c then c :: dashRuns false cs
    else if inRun then dashRuns true cs
    else '-' :: dashRuns true cs

/-- `extractFilename`. -/
def extractFilename (candidate : ShortPayCandidate) : Text :=
  let safe := ((dashRuns false candidate.invoiceNumber).dropWhile (· == '-')).rdropWhile (· == '-')
  "ledger-extract-".toList ++ (if safe = [] then "invoice".toList else safe) ++ ".json".toList

/-- `exact`: integer cents or a refusal. -/
def exact (value : Int) (field : Text) : Except LedgerExtractError Int :=
  match cents value with
  | .ok c => .ok c.val
  | .error e => .error (.notCents field value e)

/-- `appliedTo`: what one row put against the invoice, added as doubles and checked at the end. -/
def appliedTo (applications : List LedgerApplication) (invoiceExternalId : Text) (field : Text) :
    Except LedgerExtractError Int := do
  let total ← applications.foldlM
    (fun total a =>
      if a.invoiceExternalId ≠ invoiceExternalId then .ok total
      else do
        let amount ← exact a.amountCents.val field
        .ok (toDoubleInt (total + amount)))
    0
  exact total field

/-- `orNull`: `undefined` and `''` are both absence. -/
def orNull (value : Option Text) : Json :=
  match value with
  | none => .null
  | some t => if t = [] then .null else .str t

def texts (values : List Text) : Json := .arr (values.map .str)

def AccountingSourceKind.text : AccountingSourceKind → Text
  | .qbo => "qbo"
  | .netsuite => "netsuite"
  | .xero => "xero"

def GapStatus.text : GapStatus → Text
  | .open => "open"
  | .credited => "credited"
  | .mixed => "mixed"

/-- A row of `payments` or `credits`, with the id it is sorted by. -/
structure ExtractRow where
  externalId : Text
  body : Json

/-- `(a, b) => (a.externalId === b.externalId ? 0 : a.externalId < b.externalId ? -1 : 1)`. -/
def compareRows (a b : ExtractRow) : Int :=
  if a.externalId = b.externalId then 0 else if textLt a.externalId b.externalId then -1 else 1

def rowLe (a b : ExtractRow) : Prop := compareRows a b ≤ 0

instance : DecidableRel rowLe := fun a b => inferInstanceAs (Decidable (compareRows a b ≤ 0))

def names (id : Text) (applications : List LedgerApplication) : Bool :=
  applications.any fun a => a.invoiceExternalId = id

def paymentRow (invoiceId : Text) (payment : LedgerPayment) : Except LedgerExtractError ExtractRow := do
  let appliedCents ← appliedTo payment.appliedTo invoiceId ("payment ".toList ++ payment.externalId)
  let totalCents ← exact payment.totalCents.val ("payment ".toList ++ payment.externalId ++ " total".toList)
  .ok { externalId := payment.externalId
        body := .obj
          [("appliedCents", .num appliedCents), ("externalId", .str payment.externalId),
           ("memo", orNull payment.memo), ("receivedOn", .str payment.receivedOn),
           ("reference", orNull payment.reference), ("totalCents", .num totalCents)] }

def creditRow (invoiceId : Text) (credit : LedgerCredit) : Except LedgerExtractError ExtractRow := do
  let appliedCents ← appliedTo credit.appliedTo invoiceId ("credit ".toList ++ credit.externalId)
  let totalCents ← exact credit.totalCents.val ("credit ".toList ++ credit.externalId ++ " total".toList)
  .ok { externalId := credit.externalId
        body := .obj
          [("appliedCents", .num appliedCents), ("externalId", .str credit.externalId),
           ("issuedOn", .str credit.issuedOn), ("memo", orNull credit.memo),
           ("totalCents", .num totalCents)] }

/-- The candidate, as the document has it (200-218). -/
def candidateBody (candidate : ShortPayCandidate) : Except LedgerExtractError Json := do
  let appliedCreditsCents ← exact candidate.appliedCreditsCents.val "appliedCreditsCents"
  let appliedPaymentsCents ← exact candidate.appliedPaymentsCents.val "appliedPaymentsCents"
  let gapCents ← exact candidate.gapCents.val "gapCents"
  let invoiceTotalCents ← exact candidate.invoiceTotalCents.val "invoiceTotalCents"
  .ok (.obj
    [("appliedCreditsCents", .num appliedCreditsCents), ("appliedPaymentsCents", .num appliedPaymentsCents),
     ("creditMemos", texts candidate.creditMemos),
     ("customerExternalId", .str candidate.customerExternalId),
     ("customerName", .str candidate.customerName), ("gapCents", .num gapCents),
     ("gapStatus", .str candidate.gapStatus.text),
     ("invoiceExternalId", .str candidate.invoiceExternalId),
     ("invoiceNumber", .str candidate.invoiceNumber), ("invoiceTotalCents", .num invoiceTotalCents),
     ("lastPaymentOn", (candidate.lastPaymentOn.map Json.str).getD .null),
     ("paymentMemos", texts candidate.paymentMemos),
     ("paymentReferences", texts candidate.paymentReferences)])

/-- The invoice (219-230). -/
def invoiceBody (invoice : LedgerInvoice) : Except LedgerExtractError Json := do
  let balanceCents ← exact invoice.balanceCents.val "invoice balanceCents"
  let totalCents ← exact invoice.totalCents.val "invoice totalCents"
  .ok (.obj
    [("balanceCents", .num balanceCents), ("currency", .str invoice.currency),
     ("customerExternalId", .str invoice.customerExternalId),
     ("customerName", .str invoice.customerName), ("dueOn", (invoice.dueOn.map Json.str).getD .null),
     ("externalId", .str invoice.externalId), ("invoiceNumber", .str invoice.invoiceNumber),
     ("issuedOn", .str invoice.issuedOn), ("sourceKind", .str invoice.sourceKind.text),
     ("totalCents", .num totalCents)])

/-- The document, before it is written down. -/
def extractBody (candidate : ShortPayCandidate) (invoice : LedgerInvoice) (payments : List LedgerPayment)
    (credits : List LedgerCredit) : Except LedgerExtractError Json := do
  let invoiceId := candidate.invoiceExternalId
  let appliedPayments ← (payments.filter fun p => names invoiceId p.appliedTo).mapM (paymentRow invoiceId)
  let appliedCredits ← (credits.filter fun c => names invoiceId c.appliedTo).mapM (creditRow invoiceId)
  let candidateJson ← candidateBody candidate
  let invoiceJson ← invoiceBody invoice
  .ok (.obj
    [("kind", .str "ledger_short_pay_extract"), ("version", .num 1), ("candidate", candidateJson),
     ("invoice", invoiceJson),
     ("payments", .arr ((appliedPayments.insertionSort rowLe).map (·.body))),
     ("credits", .arr ((appliedCredits.insertionSort rowLe).map (·.body)))])

def buildLedgerExtract (sha256 : ByteArray → Text) (candidate : ShortPayCandidate) (invoice : LedgerInvoice)
    (payments : List LedgerPayment) (credits : List LedgerCredit) :
    Except LedgerExtractError LedgerExtract :=
  if invoice.externalId ≠ candidate.invoiceExternalId then
    .error (.notTheInvoice invoice.externalId candidate.invoiceExternalId)
  else do
    let body ← extractBody candidate invoice payments credits
    let bytes := utf8 (stringify body)
    .ok { bytes
          mimeType := "application/json"
          filename := extractFilename candidate
          sha256 := sha256 bytes }

end Recouple
