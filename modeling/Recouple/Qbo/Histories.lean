import Recouple.Lib.Pages
import Recouple.Qbo.LedgerRows

/-!
# Invoice histories: `packages/qbo/src/client.ts` (168-243), `source.ts` (96-142, 272-292)

| here | there |
| --- | --- |
| `Statement` | `select * from entity where Id in (ids) STARTPOSITION startPosition MAXRESULTS maxResults` |
| `send` | one `query` round trip: the body of its answer, or what it throws |
| `queryAll`, `queryByIds` | 195-243, 168-193, over `Lib/Pages` |
| `getInvoiceHistories`, `assertAllReturned` | 96-142, 272-292 |
| `Ledger`, `Server` | QuickBooks: rows with one id each, and answers that are slices of one list for each query |
-/

namespace Recouple.Qbo.Histories
open Js FirstSeen

inductive QboEntity | Invoice | Payment | CreditMemo
deriving DecidableEq

def QboEntity.name : QboEntity → String
  | Invoice => "Invoice"
  | Payment => "Payment"
  | CreditMemo => "CreditMemo"

def QBO_MAX_PAGE_SIZE : Nat := 1000

def QBO_IDS_PER_QUERY : Nat := 100

structure QboClient where
  pageSize : Nat
  maxPages : Nat
  positive : 0 < pageSize
  bounded : pageSize ≤ QBO_MAX_PAGE_SIZE

structure Statement where
  entity : QboEntity
  ids : List Text
  startPosition : Nat
  maxResults : Nat

/-- What a read throws: a row or answer that is malformed, an id that is none, or a request that failed. -/
inductive QboError
  | thrown (e : Thrown)
  | invalidId (message : Text)
  | request (message : Text)
deriving DecidableEq

def orQbo {α : Type} (r : Except Thrown α) : Except QboError α := r.mapError .thrown

section
variable (client : QboClient) (send : Statement → Except QboError JsonObject)

/-- `QueryResponse.${entity}` -/
def responsePath (entity : QboEntity) : Text := member "QueryResponse".toList entity.name

/-- The rows of a page, each an object; the first is the result's row `start`. -/
def readRows (path : Text) (start : Nat) (pageRows : List Value) : Except QboError (List JsonObject) :=
  (pageRows.zipIdx start).mapM fun (row, index) => orQbo (readObject (some row) (element path index))

/-- The page after the first `read` rows of a query's result; `offset` rows were read before it. -/
def queryPage (entity : QboEntity) (ids : List Text) (offset read : Nat) : Except QboError (List JsonObject) := do
  let body ← send ⟨entity, ids, read + 1, client.pageSize⟩
  let queryResponse ← orQbo (readObject (field body "QueryResponse") "QueryResponse".toList)
  let pageRows ← orQbo (readArray (field queryResponse entity.name) (responsePath entity))
  if client.pageSize < pageRows.length then
    orQbo (malformed ("asked for at most ".toList ++ decimal client.pageSize ++ ' ' :: entity.name.toList ++
      " rows and got ".toList ++ decimal pageRows.length) (responsePath entity))
  else readRows (responsePath entity) (offset + read) pageRows

def queryAll (entity : QboEntity) (ids : List Text) (offset : Nat) : Except QboError (List JsonObject) :=
  readPages client.pageSize (queryPage client send entity ids offset)
    (.thrown (.malformed ⟨"pagination did not terminate for ".toList ++ entity.name.toList ++ " within ".toList ++
      decimal client.maxPages ++ " pages".toList, responsePath entity⟩)) client.maxPages []

def queryChunk (entity : QboEntity) (rows : List JsonObject) (chunk : List Text) : Except QboError (List JsonObject) := do
  let found ← queryAll client send entity chunk rows.length
  if chunk.length < found.length then
    orQbo (malformed ("asked for ".toList ++ decimal chunk.length ++ ' ' :: entity.name.toList ++
      " rows by id and got ".toList ++ decimal found.length) (responsePath entity))
  else return rows ++ found

def queryByIds (entity : QboEntity) (ids : List Text) : Except QboError (List JsonObject) := do
  let unique := firstSeen (← ids.mapM (assertQboId .invalidId))
  (chunks QBO_IDS_PER_QUERY unique).foldlM (queryChunk client send entity) []

/-- `expected` is a `Map` from an id to what links it. -/
def assertAllReturned (entity : QboEntity) (expected : List (Text × Text)) (returned : List Text) (linkedFrom : String) :
    Except QboError Unit :=
  match expected.find? fun entry => entry.1 ∉ returned with
  | none => .ok ()
  | some (id, from') =>
    orQbo (malformed (linkedFrom.toList ++ ' ' :: from' ++ " links ".toList ++ entity.name.toList ++ ' ' :: id ++
      (", which QuickBooks did not return; tallying the invoice without it would " ++
        "report a short-pay that may not exist").toList) (responsePath entity))

variable (T : CaseTables) (parsePrintedDate : Text → Except Text Text)

/-- `Invoice[${index}]` -/
def rowPath (entity : QboEntity) (index : Nat) : Text := element entity.name.toList index

/-- The payments one invoice links, each with the invoice's id. -/
def linkedPayments (row : JsonObject) (index : Nat) : Except QboError (List (Text × Text)) := do
  let invoiceId ← orQbo (readString row "Id" (rowPath .Invoice index))
  let paymentIds ← orQbo (linkedTxnIds row "Payment".toList (rowPath .Invoice index))
  return paymentIds.map fun paymentId => (paymentId, invoiceId)

/-- The rows of some ids; none are asked for where there are none. -/
def queryExpected (entity : QboEntity) (expected : List (Text × Text)) : Except QboError (List JsonObject) :=
  if expected = [] then .ok [] else queryByIds client send entity (expected.map (·.1))

def getInvoiceHistories (invoiceExternalIds : List Text) : Except QboError LedgerInvoiceHistories := do
  if invoiceExternalIds = [] then return ⟨[], [], []⟩
  let invoiceRows ← queryByIds client send .Invoice invoiceExternalIds
  let invoices ← invoiceRows.zipIdx.mapM fun (row, index) =>
    orQbo (toLedgerInvoice T parsePrintedDate row (rowPath .Invoice index))
  let linked ← invoiceRows.zipIdx.mapM fun (row, index) => linkedPayments row index
  let expectedPayments := firstBy Prod.fst linked.flatten
  let paymentRows ← queryExpected client send .Payment expectedPayments
  let payments ← paymentRows.zipIdx.mapM fun (row, index) =>
    orQbo (toLedgerPayment T parsePrintedDate row (rowPath .Payment index))
  assertAllReturned .Payment expectedPayments (payments.map (·.externalId)) "invoice"
  let applications ← orQbo (resolveCreditApplications T paymentRows (rowPath .Payment))
  let expectedCredits := applications.map fun (creditId, applied) =>
    (creditId, (applied.head?.map (·.invoiceExternalId)).getD [])
  let creditRows ← queryExpected client send .CreditMemo expectedCredits
  let credits ← creditRows.zipIdx.mapM fun (row, index) =>
    orQbo (toLedgerCredit T parsePrintedDate applications row (rowPath .CreditMemo index))
  assertAllReturned .CreditMemo expectedCredits (credits.map (·.externalId)) "invoice"
  return ⟨invoices, payments, credits⟩

end

end Recouple.Qbo.Histories
