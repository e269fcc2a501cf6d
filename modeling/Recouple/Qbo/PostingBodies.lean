import Recouple.Qbo.LedgerRows
import Recouple.Qbo.MoneyText
import Recouple.Qbo.Posting

/-!
# The bodies a write-back sends: `packages/qbo/src/posting.ts` (25-230, 291-296)

| here | there |
| --- | --- |
| `Common` | 76-85, the fields every builder reads |
| `postingReference`, `postingMemo` | 91, 99 |
| `buildFoundEntry`, `buildSettlementEntry`, `buildStoredSettlementEntry`, `buildZeroPayment` | 104, 115, 132, 158 |
| `journalEntry` | 206 |
| `Built` | what one of the four builders returned |

Whether `Date.parse` reads a day is a parameter, and so are the tables of `toLowerCase`. The two sides of a stored line
and its safe cents are its type, so the checks of them at 141 and 144 never refuse.
-/

namespace Recouple.Qbo
open Js Journal

structure JournalEntryPosting where
  customerId : Text
  txnDate : Text
  reference : Text
  memo : Text
  lines : List PostingLine
  body : JsonObject

structure ZeroPaymentPosting where
  customerId : Text
  txnDate : Text
  reference : Text
  invoiceId : Text
  journalEntryId : Text
  amountCents : Cents
  body : JsonObject

inductive Posting
  | journalEntry (entry : JournalEntryPosting)
  | payment (payment : ZeroPaymentPosting)

structure Common where
  caseId : Text
  family : Option ReasonFamily
  writebackId : Text
  approvedOn : Text
  customerId : Text

/-- A line of a settlement decision's stored entry. -/
structure StoredPostingLine where
  line : PostingLine
  memo : Option Text

def ReasonFamily.text : ReasonFamily → Text
  | .shortage => "shortage".toList
  | .pricing => "pricing".toList
  | .compliance => "compliance".toList
  | .duplicate => "duplicate".toList
  | .returns => "returns".toList
  | .promotion => "promotion".toList
  | .freight => "freight".toList
  | .quality => "quality".toList
  | .post_audit => "post_audit".toList
  | .other => "other".toList

def PostingSide.text : PostingSide → Text
  | .Debit => "Debit".toList
  | .Credit => "Credit".toList

def postingMemo (caseId : Text) (family : Option ReasonFamily) (reference : Text) : Text :=
  "Case ".toList ++ caseId ++ " | ".toList ++ (family.elim "unclassified".toList ReasonFamily.text) ++ " | ".toList ++
    reference

/-- One line of a body. -/
def bodyLine (customerId memo : Text) (memos : List (Option Text)) (line : PostingLine) (index : Nat) : Value :=
  .obj [("Amount".toList, .str (centsToQboAmount line.amountCents)),
    ("Description".toList, .str ((memos[index]?.join).getD memo)),
    ("DetailType".toList, .str "JournalEntryLineDetail".toList),
    ("JournalEntryLineDetail".toList, .obj [("PostingType".toList, .str line.side.text),
      ("AccountRef".toList, .obj [("value".toList, .str line.accountId)]),
      ("Entity".toList, .obj [("Type".toList, .str "Customer".toList),
        ("EntityRef".toList, .obj [("value".toList, .str customerId)])])])]

/-- A line of a payment that links one entity. -/
def linkLine (amount txnId txnType : Text) : Value :=
  .obj [("Amount".toList, .str amount),
    ("LinkedTxn".toList, .arr [.obj [("TxnId".toList, .str txnId), ("TxnType".toList, .str txnType)]])]

section
variable (T : CaseTables) (parses : Text → Bool)

def postingReference (writebackId : Text) : Except PostingError Text :=
  let hex := (T.toLowerCase writebackId).filter (· ≠ '-')
  if hex.length = 32 ∧ hex.all fun c => c.isDigit || ('a' ≤ c && c ≤ 'f') then .ok ("RC".toList ++ hex.take 19)
  else .error (.input "a writeback id must be a UUID".toList)

def assertDay (value : Text) : Except PostingError Text :=
  if !isIsoShape value || !parses (value ++ "T00:00:00Z".toList) then
    .error (.input "the approval day must be YYYY-MM-DD".toList)
  else .ok value

def journalEntry (input : Common) (lines : List PostingLine) (memos : List (Option Text)) : Except PostingError Posting := do
  let customerId ← assertQboId .invalidId input.customerId
  let txnDate ← assertDay parses input.approvedOn
  let reference ← postingReference T input.writebackId
  let memo := postingMemo input.caseId input.family reference
  .ok (.journalEntry {
    customerId, txnDate, reference, memo, lines
    body := [("TxnDate".toList, .str txnDate), ("DocNumber".toList, .str reference), ("PrivateNote".toList, .str memo),
      ("Line".toList, .arr (lines.mapIdx fun index line => bodyLine customerId memo memos line index))] })

def buildEntry (input : Common) (entries : List DraftEntry) (map : LedgerAccountMap) (stages : List JournalStage) :
    Except PostingError Posting := do
  journalEntry T parses input (← entryLines entries map stages) []

def buildFoundEntry (input : Common) (entries : List DraftEntry) (map : LedgerAccountMap) : Except PostingError Posting :=
  buildEntry T parses input entries map [.found]

def buildSettlementEntry (input : Common) (entries : List DraftEntry) (map : LedgerAccountMap) (includeFound : Bool) :
    Except PostingError Posting :=
  buildEntry T parses input entries map (settlementStages includeFound)

/-- A stored line as it is posted, and its memo where it has one. -/
def storedLine (stored : StoredPostingLine) : Except PostingError (PostingLine × Option Text) := do
  if stored.line.amountCents.val ≤ 0 then .error (.input "a stored line posts positive integer cents".toList)
  else
    let accountId ← assertQboId .invalidId stored.line.accountId
    .ok (⟨accountId, stored.line.side, stored.line.amountCents⟩, stored.memo.filter (· ≠ []))

def buildStoredSettlementEntry (input : Common) (stored : List StoredPostingLine) : Except PostingError Posting := do
  if stored.length < 2 then .error (.input "a stored settlement entry has at least two lines".toList)
  else
    let lines ← stored.mapM storedLine
    assertBalanced (lines.map (·.1))
    journalEntry T parses input (lines.map (·.1)) (lines.map (·.2))

def buildZeroPayment (input : Common) (invoiceId journalEntryId : Text) (amountCents : Cents) :
    Except PostingError Posting := do
  let invoiceId ← assertQboId .invalidId invoiceId
  let journalEntryId ← assertQboId .invalidId journalEntryId
  let customerId ← assertQboId .invalidId input.customerId
  let txnDate ← assertDay parses input.approvedOn
  if amountCents.val ≤ 0 then .error (.input "a zero payment applies a positive amount".toList)
  else
    let reference ← postingReference T input.writebackId
    let amount := centsToQboAmount amountCents
    .ok (.payment {
      customerId, txnDate, reference, invoiceId, journalEntryId, amountCents
      body := [("CustomerRef".toList, .obj [("value".toList, .str customerId)]),
        ("TotalAmt".toList, .str (centsToQboAmount ZERO)), ("TxnDate".toList, .str txnDate),
        ("PaymentRefNum".toList, .str reference),
        ("PrivateNote".toList, .str (postingMemo input.caseId input.family reference)),
        ("Line".toList, .arr [linkLine amount invoiceId "Invoice".toList,
          linkLine amount journalEntryId "JournalEntry".toList])] })

/-- What one of the builders returned. -/
inductive Built : Posting → Prop
  | found {input : Common} {entries : List DraftEntry} {map : LedgerAccountMap} {sent : Posting} :
    buildFoundEntry T parses input entries map = .ok sent → Built sent
  | settlement {input : Common} {entries : List DraftEntry} {map : LedgerAccountMap} {includeFound : Bool} {sent : Posting} :
    buildSettlementEntry T parses input entries map includeFound = .ok sent → Built sent
  | stored {input : Common} {lines : List StoredPostingLine} {sent : Posting} :
    buildStoredSettlementEntry T parses input lines = .ok sent → Built sent
  | zeroPayment {input : Common} {invoiceId journalEntryId : Text} {amountCents : Cents} {sent : Posting} :
    buildZeroPayment T parses input invoiceId journalEntryId amountCents = .ok sent → Built sent

end

end Recouple.Qbo
