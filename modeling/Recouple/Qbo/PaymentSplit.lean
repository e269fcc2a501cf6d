import Recouple.Core.Ledger
import Recouple.Lib.Groups
import Recouple.Qbo.Reader

/-!
# A payment split into cash and credits: `packages/qbo/src/map.ts` (162-369)

`readPaymentApplications` reads a Payment's lines and says what of them was cash and what a credit memo
settled. A journal entry pairs as a credit does and is recorded as no credit memo's application.
-/

namespace Recouple.Qbo
open Js

/-- `PaymentLine`. -/
structure PaymentLine where
  path : Text
  amountCents : Cents
  invoiceId : Option Text
  creditMemoId : Option Text
  journalEntryId : Option Text
deriving DecidableEq

/-- `PaymentApplications`: `credits` is a `Map` in insertion order. -/
structure PaymentApplications where
  totalCents : Cents
  cash : List LedgerApplication
  credits : List (Text × List LedgerApplication)
deriving DecidableEq

/-! ## The lines of the row -/

/-- The three `TxnType`s that say something of a line; Deposits and the rest are ignored. -/
inductive TxnType | Invoice | CreditMemo | JournalEntry
deriving DecidableEq

def txnTypeOf (t : Text) : Option TxnType :=
  if t = "Invoice".toList then some .Invoice
  else if t = "CreditMemo".toList then some .CreditMemo
  else if t = "JournalEntry".toList then some .JournalEntry
  else none

/-- One entry of `LinkedTxn`: its type and id, where they matter. -/
def readLink (linkPath : Text) (rawLink : Value) : Except Thrown (Option (TxnType × Text)) := do
  let link ← readObject (some rawLink) linkPath
  let txnType ← readString link "TxnType" linkPath
  match txnTypeOf txnType with
  | none => return none
  | some kind =>
    let id ← readString link "TxnId" linkPath
    return some (kind, id)

/-- The ids of one type, in the order of the links. -/
def idsOf (kind : TxnType) (links : List (Option (TxnType × Text))) : List Text :=
  links.filterMap fun link => link.bind fun (k, id) => if k = kind then some id else none

/-- `refuseTwo`. -/
def refuseTwo (what : String) (ids : List Text) (linePath : Text) : Except Thrown Unit :=
  if ids.length > 1 then
    malformed ("payment line at ".toList ++ linePath ++ " links ".toList ++ decimal ids.length ++ ' ' :: what.toList ++
      " to a single amount, so the application cannot be attributed".toList) (member linePath "LinkedTxn")
  else .ok ()

section
variable (T : CaseTables)

/-- One line of `readPaymentLines`. -/
def readPaymentLine (linePath : Text) (rawLine : Value) : Except Thrown PaymentLine := do
  let line ← readObject (some rawLine) linePath
  let amountCents ← qboAmountToCents T (field line "Amount") (member linePath "Amount")
  let rawLinks ← readArray (field line "LinkedTxn") (member linePath "LinkedTxn")
  let links ← rawLinks.zipIdx.mapM fun (rawLink, i) => readLink (element (member linePath "LinkedTxn") i) rawLink
  let invoiceIds := idsOf .Invoice links
  let creditMemoIds := idsOf .CreditMemo links
  let journalEntryIds := idsOf .JournalEntry links
  refuseTwo "invoices" invoiceIds linePath
  refuseTwo "credit memos" creditMemoIds linePath
  refuseTwo "credits" (creditMemoIds ++ journalEntryIds) linePath
  return ⟨linePath, amountCents, invoiceIds.head?, creditMemoIds.head?, journalEntryIds.head?⟩

/-- `readPaymentLines`. -/
def readPaymentLines (row : JsonObject) (path : Text) : Except Thrown (List PaymentLine) := do
  let items ← readArray (field row "Line") (member path "Line")
  items.zipIdx.mapM fun (rawLine, i) => readPaymentLine T (element (member path "Line") i) rawLine

end

/-! ## The split -/

/-- The `Map` of credits. -/
abbrev Credits := List (Text × List LedgerApplication)

/-- `applyCredit`: a credit without a memo (a journal entry's) is not recorded. -/
def applyCredit (creditMemoId : Option Text) (application : LedgerApplication) (credits : Credits) : Credits :=
  match creditMemoId with
  | none => credits
  | some id => Groups.push id application credits

/-- A line that names an invoice and no credit. -/
structure InvoiceLine where
  line : PaymentLine
  invoiceId : Text
deriving DecidableEq

/-- A line that names a credit and no invoice: no `creditMemoId` where it is a journal entry's. -/
structure CreditLine where
  line : PaymentLine
  creditMemoId : Option Text
deriving DecidableEq

/-- What the loop over the lines fills. -/
structure Sorted where
  credits : Credits
  invoiceLines : List InvoiceLine
  creditLines : List CreditLine

/-- The body of that loop. -/
def sortLine (sorted : Sorted) (line : PaymentLine) : Sorted :=
  match line.invoiceId, line.creditMemoId, line.journalEntryId with
  -- an invoice settled by a journal entry's credit on one line: not cash
  | some _, _, some _ => sorted
  | none, _, some _ => { sorted with creditLines := sorted.creditLines ++ [⟨line, none⟩] }
  | some invoiceId, some creditMemoId, none =>
    { sorted with credits := applyCredit (some creditMemoId) ⟨invoiceId, line.amountCents⟩ sorted.credits }
  | some invoiceId, none, none => { sorted with invoiceLines := sorted.invoiceLines ++ [⟨line, invoiceId⟩] }
  | none, some creditMemoId, none =>
    { sorted with creditLines := sorted.creditLines ++ [⟨line, some creditMemoId⟩] }
  | none, none, none => sorted

def sortLines (lines : List PaymentLine) : Sorted := lines.foldl sortLine ⟨[], [], []⟩

/-- An invoice line read as cash. -/
def InvoiceLine.asCash (entry : InvoiceLine) : LedgerApplication := ⟨entry.invoiceId, entry.line.amountCents⟩

/-- `sumCents` and `subCents` as they are called here. -/
def orMoney {α : Type} (r : Except MoneyError α) : Except Thrown α := r.mapError .money

/-- One invoice line: the cash is that line less the credit funding it. -/
def splitOne (path : Text) (credits : Credits) (only : InvoiceLine) (creditLines : List CreditLine) :
    Except Thrown (List LedgerApplication × Credits) := do
  let fundedCents ← orMoney (sumCents (creditLines.map (·.line.amountCents)))
  let credits := creditLines.foldl
    (fun credits c => applyCredit c.creditMemoId ⟨only.invoiceId, c.line.amountCents⟩ credits) credits
  let cashCents ← orMoney (subCents only.line.amountCents fundedCents)
  if cashCents.val < 0 then
    malformed ("payment at ".toList ++ path ++ " applies ".toList ++ formatCents fundedCents ++
      " of credit memos to a line of ".toList ++ formatCents only.line.amountCents ++
      ", so how much of it was cash cannot be said".toList) (member path "Line")
  return (if 0 < cashCents.val then [⟨only.invoiceId, cashCents⟩] else [], credits)

/-- The invoice lines not claimed yet whose amount is the credit line's. -/
def matchesOf (invoiceLines : List InvoiceLine) (claimed : List Nat) (amount : Cents) : List (InvoiceLine × Nat) :=
  invoiceLines.zipIdx.filter fun (candidate, index) => index ∉ claimed ∧ candidate.line.amountCents = amount

/-- Several invoice lines: a credit line claims the one unclaimed invoice line of its amount. -/
def claimLine (invoiceLines : List InvoiceLine) (state : List Nat × Credits) (c : CreditLine) :
    Except Thrown (List Nat × Credits) :=
  match matchesOf invoiceLines state.1 c.line.amountCents with
  | [(candidate, index)] =>
    .ok (index :: state.1, applyCredit c.creditMemoId ⟨candidate.invoiceId, c.line.amountCents⟩ state.2)
  | found =>
    malformed ("credit memo line at ".toList ++ c.line.path ++ " applies ".toList ++ formatCents c.line.amountCents ++
      ", and ".toList ++ decimal found.length ++ " of this payment's unclaimed invoice lines are for that ".toList ++
      "amount — so which invoice the credit settled cannot be said".toList) (member c.line.path "LinkedTxn")

def splitSeveral (credits : Credits) (invoiceLines : List InvoiceLine) (creditLines : List CreditLine) :
    Except Thrown (List LedgerApplication × Credits) := do
  let (claimed, credits) ← creditLines.foldlM (claimLine invoiceLines) ([], credits)
  return ((invoiceLines.zipIdx.filter fun (_, index) => index ∉ claimed).map (·.1.asCash), credits)

/-- The split of the sorted lines into cash and credits. -/
def splitSorted (path : Text) (sorted : Sorted) : Except Thrown (List LedgerApplication × Credits) :=
  if sorted.creditLines = [] then .ok (sorted.invoiceLines.map (·.asCash), sorted.credits)
  else
    match sorted.invoiceLines with
    | [only] => splitOne path sorted.credits only sorted.creditLines
    | _ => splitSeveral sorted.credits sorted.invoiceLines sorted.creditLines

/-- The bound: no more cash than the payment carried. -/
def boundCash (path : Text) (totalCents : Cents) (split : List LedgerApplication × Credits) :
    Except Thrown PaymentApplications := do
  let cashCents ← orMoney (sumCents (split.1.map (·.amountCents)))
  if cashCents.val > totalCents.val then
    malformed ("payment at ".toList ++ path ++ " carried ".toList ++ formatCents totalCents ++ " but ".toList ++
      formatCents cashCents ++ " of its lines read as cash applied to invoices".toList) (member path "Line")
  return ⟨totalCents, split.1, split.2⟩

/-- `readPaymentApplications`. -/
def readPaymentApplications (T : CaseTables) (row : JsonObject) (path : Text) : Except Thrown PaymentApplications := do
  let totalCents ← qboAmountToCents T (field row "TotalAmt") (member path "TotalAmt")
  let lines ← readPaymentLines T row path
  let split ← splitSorted path (sortLines lines)
  boundCash path totalCents split

end Recouple.Qbo
