import Recouple.Lib.Rows
import Recouple.Lib.Threads
import Recouple.Qbo.ReadBack

/-!
# The posting job: `packages/pipeline/src/posting-job.ts`

The job over the rows that `packages/store-postgres/src/posting.ts` keeps, beside what a person does to them.

| here | there |
| --- | --- |
| `NOTHING_SENT_REASONS`, `nothingWasSent` | `core-domain/src/posting-status.ts` (80-100) |
| `Writeback`, `Books` | `writebacks`, and the events `writeback.attempted` and `settlement.voided` |
| `rowFor`, `writebackForPosting` | `posting.ts` (1273) |
| `recordWritebackAttempt`, `insertWriteback`, `requeueWriteback` | 1248, 1146, 1422 |
| `checkVoid`, `voidSettlementPosting` | 1465-1530 |
| `postWritebackJob` and what it is made of | `posting-job.ts` (173-368) |
| `runPostWriteback` | `apps/web/lib/inngest-posting.ts` (45, 83): one run at a time for a connection, so for a row |

A transaction of the store is one step, and so is an answer of QuickBooks. At each of them the process may end, with
the step done or not. What the store reads beside the rows, the deployment's settings and what QuickBooks answers are
the environment's. `Id`s of an answer are its field `Id` where that is a text.
-/

namespace Recouple.Qbo.PostingJob
open Js Journal Thread

/-! ## What was sent -/

/-- The reasons an attempt is recorded with. -/
inductive AttemptReason
  | no_invoice
  | invoice_not_found
  | invoice_lookup_failed
  | build_failed
  | lines_changed
  | send_failed
  | unknown_outcome
  | readback_failed
  | readback_mismatch
  | ambiguous_reference
  | found_on_retry
  | sent
deriving DecidableEq

def NOTHING_SENT_REASONS : List AttemptReason :=
  [.no_invoice, .invoice_not_found, .invoice_lookup_failed, .build_failed, .lines_changed]

def isNothingSentReason (reason : Option AttemptReason) : Bool := reason.any fun reason => reason ∈ NOTHING_SENT_REASONS

def nothingWasSent (attemptReasons : List (Option AttemptReason)) : Bool :=
  decide (0 < attemptReasons.length) && attemptReasons.all isNothingSentReason

/-! ## Rows -/

inductive WritebackMethod
  | journal_entry
  | payment_application
deriving DecidableEq

inductive WritebackStatus
  | pending
  | succeeded
  | failed
deriving DecidableEq

inductive SchemaId
  | B
  | S
deriving DecidableEq

/-- A row of `writebacks`. -/
structure Writeback where
  id : Text
  decisionId : Text
  method : WritebackMethod
  status : WritebackStatus
  qboTxnId : Option Text
  connectionId : Text
  amountCents : Cents
  lines : Option (List PostingLine)

/-- What the job reads of a row. -/
structure PostingWriteback where
  writebackId : Text
  deductionId : Text
  decisionId : Text
  schemaId : SchemaId
  method : WritebackMethod
  status : WritebackStatus
  qboTxnId : Option Text
  connectionId : Text
  realmId : Text
  postingEnabled : Bool
  amountCents : Cents
  lines : Option (List PostingLine)
  settlementLines : Option (List StoredPostingLine)
  caseAmountCents : Cents
  family : Option ReasonFamily
  outcome : Option Outcome
  recoveredCents : Option Cents
  invoiceId : Option Text
  approvedOn : Text
  map : LedgerAccountMap
  journalEntryId : Option Text
  voided : Bool

/-- What is read beside the row: the case, its decision, its approval, the connection and the map. -/
structure Facts where
  deductionId : Text
  schemaId : SchemaId
  realmId : Text
  postingEnabled : Bool
  settlementLines : Option (List StoredPostingLine)
  caseAmountCents : Cents
  family : Option ReasonFamily
  outcome : Option Outcome
  recoveredCents : Option Cents
  invoiceId : Option Text
  approvedOn : Text
  map : LedgerAccountMap

/-- How an attempt ended. -/
inductive AttemptStatus
  | succeeded
  | failed
deriving DecidableEq

def AttemptStatus.status : AttemptStatus → WritebackStatus
  | .succeeded => .succeeded
  | .failed => .failed

structure PostingAttempt where
  writebackId : Text
  status : AttemptStatus
  qboTxnId : Option Text
  reason : Option AttemptReason
  httpStatus : Option Int
  faultCode : Option Text
  mismatch : Option (List Text)

section
variable {ι : Type}

/-- What has happened. -/
inductive Event (ι : Type)
  /-- `writebackForPosting` answered a run. -/
  | read (run : ι) (row : PostingWriteback)
  /-- `findByReference` answered a run. -/
  | found (run : ι) (reference : Text) (existing : List JsonObject)
  /-- A create request left, under a request id. -/
  | sent (run : ι) (requestId : Text) (posting : Posting)
  /-- `getById` answered a run. -/
  | got (run : ι) (id : Text) (object : JsonObject)
  /-- `writeback.attempted` -/
  | recorded (run : ι) (attempt : PostingAttempt)
  /-- The run gave its place up. -/
  | ended (run : ι)
  /-- `settlement.voided` -/
  | voided (decisionId : Text)

/-- The run an event is of. -/
def Event.run : Event ι → Option ι
  | .read run _ => some run
  | .found run _ _ => some run
  | .sent run _ _ => some run
  | .got run _ _ => some run
  | .recorded run _ => some run
  | .ended run => some run
  | .voided _ => none

structure Books (ι : Type) where
  /-- `writebacks`, oldest first. -/
  writebacks : List Writeback
  /-- The row and the reason of every `writeback.attempted`, oldest first. -/
  attempts : List (Text × Option AttemptReason)
  /-- The decisions with a `settlement.voided`. -/
  voided : List Text
  /-- The run that has a row's place. -/
  running : Text → Option ι
  log : List (Event ι)

def Books.note (s : Books ι) (e : Event ι) : Books ι := { s with log := s.log ++ [e] }

def rowFor (s : Books ι) (facts : Facts) (w : Writeback) : PostingWriteback where
  writebackId := w.id
  deductionId := facts.deductionId
  decisionId := w.decisionId
  schemaId := facts.schemaId
  method := w.method
  status := w.status
  qboTxnId := w.qboTxnId
  connectionId := w.connectionId
  realmId := facts.realmId
  postingEnabled := facts.postingEnabled
  amountCents := w.amountCents
  lines := w.lines
  settlementLines := facts.settlementLines
  caseAmountCents := facts.caseAmountCents
  family := facts.family
  outcome := facts.outcome
  recoveredCents := facts.recoveredCents
  invoiceId := facts.invoiceId
  approvedOn := facts.approvedOn
  map := facts.map
  journalEntryId := (s.writebacks.find? fun e =>
    e.decisionId = w.decisionId ∧ e.method = .journal_entry ∧ e.status = .succeeded).bind (·.qboTxnId)
  voided := decide (w.decisionId ∈ s.voided)

inductive VoidRefusal
  | not_found
  | not_approved
  | already_voided
  | posted
  | not_failed
  | maybe_sent
  | in_ledger
deriving DecidableEq

inductive PostingRefusal
  | not_configured
  | member_may_not_write
  | not_found
  | posting_disabled
  | not_pending
  | no_client
  | entry_not_verified
  | voided
deriving DecidableEq

/-- How a run ends but for a result. -/
inductive JobError
  /-- `PostingRefusedError` -/
  | refused (reason : PostingRefusal)
  /-- `WritebackNotSentError` -/
  | notSent (reason : AttemptReason)
  /-- `WritebackFailedError` -/
  | failed (reason : AttemptReason)
  /-- `SettlementVoidRefusedError` -/
  | voidRefused (reason : VoidRefusal)
  /-- Another error of the store, or the end of the process. -/
  | stopped
deriving DecidableEq

/-- What an attempt makes of its row. -/
def PostingAttempt.project (attempt : PostingAttempt) (w : Writeback) : Writeback :=
  { w with status := attempt.status.status, qboTxnId := w.qboTxnId.or attempt.qboTxnId }

/-- An attempt and its projection on the row. The row may be missing, and its success is final
(`app.writeback_outcome_is_final`). -/
def record (s : Books ι) (run : ι) (attempt : PostingAttempt) : Except JobError (Books ι) :=
  match Rows.lookup Writeback.id s.writebacks attempt.writebackId with
  | none => .error .stopped
  | some row =>
    if row.status = .succeeded ∧ attempt.status ≠ .succeeded then .error .stopped
    else .ok { s with
      writebacks := Rows.modify Writeback.id s.writebacks attempt.writebackId attempt.project
      attempts := s.attempts ++ [(attempt.writebackId, attempt.reason)]
      log := s.log ++ [.recorded run attempt] }

/-- The reasons of a row's attempts. -/
def reasonsOf (s : Books ι) (writebackId : Text) : List (Option AttemptReason) :=
  (s.attempts.filter fun a => a.1 = writebackId).map (·.2)

/-- The `check` of a void, of a settlement that was approved: the rows of the decision. -/
def checkVoid (s : Books ι) (decisionId : Text) : Except VoidRefusal (List Writeback) :=
  let rows := s.writebacks.filter fun w => w.decisionId = decisionId
  if decisionId ∈ s.voided then .error .already_voided
  else if rows.any fun row => row.status = .succeeded then .error .posted
  else
    match rows.find? fun row => row.method = .journal_entry with
    | none => .error .not_failed
    | some entry =>
      if entry.status ≠ .failed then .error .not_failed
      else if rows.any fun row =>
          if row.id = entry.id then !nothingWasSent (reasonsOf s row.id)
          else decide (0 < (reasonsOf s row.id).length) && !nothingWasSent (reasonsOf s row.id) then
        .error .maybe_sent
      else .ok rows

/-! ## Calls -/

inductive JobResult
  | succeeded (qboTxnId : Text)
  | already_succeeded (qboTxnId : Option Text)
  /-- A person's request was carried out. -/
  | done
deriving DecidableEq

abbrev Run (ι : Type) (α : Type) := Thread (Books ι) JobError α

/-- What a client method throws: a `QboRequestFailed` with its status and the code of its first fault, or another. -/
inductive ClientError
  | requestFailed (status : Int) (code : Option Text)
  | other

/-- `/^[A-Za-z0-9_-]{1,32}$/` -/
def isFaultCode (code : Text) : Bool :=
  (code.all fun c => c.isAlphanum || c = '_' || c = '-') && decide (1 ≤ code.length ∧ code.length ≤ 32)

def failureOf : ClientError → Option Int × Option Text
  | .requestFailed status code => (if 0 < status then some status else none, code.filter isFaultCode)
  | .other => (none, none)

/-- A question the environment answers. -/
def ask {α : Type} : Run ι α := attempt fun s r s' => s' = s ∧ ((∃ a, r = .ok a) ∨ r = .error .stopped)

/-- What is noted of an answer. -/
def notes {α : Type} (noted : α → List (Event ι)) : Except ClientError α → List (Event ι)
  | .ok a => noted a
  | .error _ => []

/-- An answer of QuickBooks. -/
def client {α : Type} (noted : α → List (Event ι)) : Run ι (Except ClientError α) :=
  attempt fun s r s' => (∃ answer, r = .ok answer ∧ s' = { s with log := s.log ++ notes noted answer }) ∨
    r = .error .stopped ∧ s' = s

/-- A transaction: committed, and its answer lost or not, or rolled back. -/
def transaction (commit : Books ι → Except JobError (Books ι)) : Run ι Unit :=
  attempt fun s r s' =>
    match commit s with
    | .ok t => (r = .ok () ∨ r = .error .stopped) ∧ s' = t ∨ r = .error .stopped ∧ s' = s
    | .error e => (r = .error e ∨ r = .error .stopped) ∧ s' = s

def require (p : Bool) (e : JobError) : Run ι Unit := if p then pure () else throw e

def writebackForPosting (run : ι) (writebackId : Text) : Run ι (Option PostingWriteback) :=
  attempt fun s r s' =>
    match Rows.lookup Writeback.id s.writebacks writebackId with
    | none => s' = s ∧ (r = .ok none ∨ r = .error .stopped)
    | some w =>
      (∃ facts, r = .ok (some (rowFor s facts w)) ∧ s' = s.note (.read run (rowFor s facts w))) ∨
        r = .error .stopped ∧ s' = s

def recordWritebackAttempt (run : ι) (attempt : PostingAttempt) : Run ι Unit :=
  transaction fun s => record s run attempt

/-- `client.post`: the request leaves, and then QuickBooks answers or does not. -/
def post (run : ι) (requestId : Text) (posting : Posting) : Run ι (Except ClientError JsonObject) := do
  atomic fun s (_ : Unit) s' => s' = s.note (.sent run requestId posting)
  client fun _ => []

def getById (run : ι) (id : Text) : Run ι (Except ClientError JsonObject) := client fun object => [.got run id object]

/-! ## The job -/

section
variable (T : CaseTables) (parses : Text → Bool)

/-- `findByReference(entity, postingReference(writebackId))`, in the `try` of the job. -/
def findByReference (run : ι) (writebackId : Text) : Run ι (Except ClientError (List JsonObject)) :=
  match postingReference T writebackId with
  | .error _ => pure (.error .other)
  | .ok reference => client fun existing => [.found run reference existing]

/-- The builder that a row calls for. -/
def buildPosting (row : PostingWriteback) (invoiceId customerId : Text) : Except PostingError Posting :=
  let common : Common :=
    { caseId := row.deductionId, family := row.family, writebackId := row.writebackId, approvedOn := row.approvedOn,
      customerId }
  match row.method with
  | .payment_application => buildZeroPayment T parses common invoiceId (row.journalEntryId.getD []) row.amountCents
  | .journal_entry =>
    let drafted : Except PostingError Posting :=
      match draftEntries ⟨row.caseAmountCents, row.recoveredCents, row.outcome, row.family, none, none⟩ with
      | .error _ => .error (.input [])
      | .ok entries =>
        match row.schemaId with
        | .B => buildFoundEntry T parses common entries row.map
        | .S => buildSettlementEntry T parses common entries row.map (row.outcome = some .declined)
    match row.schemaId, row.settlementLines with
    | .S, some lines => buildStoredSettlementEntry T parses common lines
    | _, _ => drafted

def sameLines (built : List PostingLine) : Option (List PostingLine) → Bool
  | none => false
  | some stored => decide (stored.length = built.length) && (built.zip stored).all fun pair =>
      pair.2.accountId = pair.1.accountId ∧ pair.2.side = pair.1.side ∧ pair.2.amountCents = pair.1.amountCents

/-- An entry has the row's own lines. -/
def linesKept (posting : Posting) (stored : Option (List PostingLine)) : Bool :=
  match posting with
  | .journalEntry entry => sameLines entry.lines stored
  | .payment _ => true

/-- What is refused of a row that has not succeeded. -/
def refusal (row : PostingWriteback) : Option PostingRefusal :=
  if !row.postingEnabled then some .posting_disabled
  else if row.voided then some .voided
  else if row.status ≠ .pending then some .not_pending
  else if row.method = .payment_application ∧ row.journalEntryId = none then some .entry_not_verified
  else none

/-- An attempt that failed. -/
def failedAttempt (writebackId : Text) (reason : AttemptReason) (failure : Option Int × Option Text) : PostingAttempt :=
  ⟨writebackId, .failed, none, some reason, failure.1, failure.2, none⟩

def notSent {α : Type} (run : ι) (writebackId : Text) (reason : AttemptReason) (failure : Option Int × Option Text) :
    Run ι α := do
  recordWritebackAttempt run (failedAttempt writebackId reason failure)
  throw (.notSent reason)

def failWith {α : Type} (run : ι) (writebackId : Text) (reason : AttemptReason) (failure : Option Int × Option Text) :
    Run ι α := do
  recordWritebackAttempt run (failedAttempt writebackId reason failure)
  throw (.failed reason)

def mismatched {α : Type} (run : ι) (writebackId : Text) (mismatch : Option (List Text)) : Run ι α := do
  recordWritebackAttempt run ⟨writebackId, .failed, none, some .readback_mismatch, none, none, mismatch⟩
  throw (.failed .readback_mismatch)

def succeed (run : ι) (writebackId qboTxnId : Text) (reason : AttemptReason) : Run ι JobResult := do
  recordWritebackAttempt run ⟨writebackId, .succeeded, some qboTxnId, some reason, none, none, none⟩
  pure (.succeeded qboTxnId)

/-- `typeof object['Id'] === 'string' ? object['Id'] : undefined` -/
def idOf (object : JsonObject) : Option Text :=
  match field object "Id" with
  | some (.str id) => some id
  | _ => none

/-- The posting of a row, or an attempt that sent nothing. -/
def prepare (run : ι) (row : PostingWriteback) : Run ι Posting :=
  match row.invoiceId with
  | none => notSent run row.writebackId .no_invoice (none, none)
  | some invoiceId => do
    match ← client fun (_ : Option Text) => [] with
    | .error e => notSent run row.writebackId .invoice_lookup_failed (failureOf e)
    | .ok none => notSent run row.writebackId .invoice_not_found (none, none)
    | .ok (some customerId) =>
      match buildPosting T parses row invoiceId customerId with
      | .error _ => notSent run row.writebackId .build_failed (none, none)
      | .ok posting =>
        if linesKept posting row.lines then pure posting
        else notSent run row.writebackId .lines_changed (none, none)

/-- What a retry makes of what QuickBooks holds. -/
def adopt (run : ι) (writebackId : Text) (posting : Posting) (already : JsonObject) : Run ι JobResult :=
  match verifyReadBack T posting already, idOf already with
  | .error _, _ => throw .stopped
  | .ok .agreed, some foundId => succeed run writebackId foundId .found_on_retry
  | .ok .agreed, none => mismatched run writebackId none
  | .ok (.mismatch what), _ => mismatched run writebackId (some what)

/-- The request, and the reading back of what it made. -/
def send (run : ι) (writebackId : Text) (posting : Posting) : Run ι JobResult := do
  match ← post run writebackId posting with
  | .error e =>
    failWith run writebackId
      (if (failureOf e).1.any fun status => 400 ≤ status ∧ status < 500 then .send_failed else .unknown_outcome)
      (failureOf e)
  | .ok created =>
    match idOf created with
    | none => failWith run writebackId .readback_failed (none, none)
    | some qboTxnId => do
      match ← getById run qboTxnId with
      | .error e => failWith run writebackId .readback_failed (failureOf e)
      | .ok got =>
        match verifyReadBack T posting got with
        | .error _ => throw .stopped
        | .ok .agreed => succeed run writebackId qboTxnId .sent
        | .ok (.mismatch what) => mismatched run writebackId (some what)

/-- A retry asks QuickBooks before it sends. -/
def retrying (run : ι) (writebackId : Text) (posting : Posting) : Run ι JobResult := do
  match ← findByReference T run writebackId with
  | .error e => failWith run writebackId .readback_failed (failureOf e)
  | .ok [] => send T run writebackId posting
  | .ok [already] => adopt T run writebackId posting already
  | .ok _ => failWith run writebackId .ambiguous_reference (none, none)

def postWritebackJob (postingAllowed : Bool) (run : ι) (writebackId : Text) (retry : Bool) : Run ι JobResult := do
  require postingAllowed (.refused .not_configured)
  require (← ask) (.refused .member_may_not_write)
  match ← writebackForPosting run writebackId with
  | none => throw (.refused .not_found)
  | some row =>
    if row.status = .succeeded then pure (.already_succeeded row.qboTxnId)
    else
      match refusal row with
      | some reason => throw (.refused reason)
      | none => do
        require (← ask) (.refused .no_client)
        let posting ← prepare T parses run row
        if retry then retrying T run writebackId posting else send T run writebackId posting

/-! ## What runs beside it -/

/-- A run takes the row's place. -/
def acquire (run : ι) (writebackId : Text) : Run ι Unit :=
  atomic fun s _ s' => s.running writebackId = none ∧
    s' = { s with running := Function.update s.running writebackId (some run) }

def release (run : ι) (writebackId : Text) : Run ι Unit :=
  atomic fun s _ s' =>
    s' = { s with running := Function.update s.running writebackId none, log := s.log ++ [.ended run] }

def runPostWriteback (postingAllowed : Bool) (run : ι) (writebackId : Text) (retry : Bool) : Run ι JobResult := do
  acquire run writebackId
  ending (postWritebackJob T parses postingAllowed run writebackId retry) (release run writebackId)

/-- A new row is pending, and the only one of its decision and method. -/
def insertWriteback (w : Writeback) : Run ι JobResult := do
  transaction fun s =>
    if s.writebacks.any fun w' => w'.id = w.id ∨ w'.decisionId = w.decisionId ∧ w'.method = w.method then
      .error .stopped
    else .ok { s with writebacks := s.writebacks ++ [{ w with status := .pending, qboTxnId := none }] }
  pure .done

def requeueWriteback (writebackId : Text) : Run ι JobResult := do
  transaction fun s =>
    match Rows.lookup Writeback.id s.writebacks writebackId with
    | none => .error .stopped
    | some row =>
      if row.decisionId ∈ s.voided then .error .stopped
      else if row.status ≠ .failed then .error .stopped
      else .ok { s with
        writebacks := Rows.modify Writeback.id s.writebacks writebackId fun w => { w with status := .pending } }
  pure .done

/-- The first `check`, without a lock. -/
def checked (decisionId : Text) : Run ι (List Writeback) :=
  attempt fun s r s' => s' = s ∧ (r = (checkVoid s decisionId).mapError .voidRefused ∨
    r = .error (.voidRefused .not_found) ∨ r = .error (.voidRefused .not_approved) ∨ r = .error .stopped)

/-- The second `check` and the event. -/
def commitVoid (decisionId : Text) (before : List Writeback) : Run ι Unit :=
  transaction fun s =>
    match checkVoid s decisionId with
    | .error reason => .error (.voidRefused reason)
    | .ok rows =>
      if rows.map (·.id) ≠ before.map (·.id) then .error (.voidRefused .maybe_sent)
      else .ok { s with voided := s.voided ++ [decisionId], log := s.log ++ [.voided decisionId] }

def voidSettlementPosting (decisionId : Text) : Run ι JobResult := do
  let before ← checked decisionId
  require (← ask) (.voidRefused .in_ledger)
  commitVoid decisionId before
  pure .done

/-- What is run beside each other. -/
inductive Operation
  | insert (w : Writeback)
  | post (postingAllowed : Bool) (writebackId : Text) (retry : Bool)
  | requeue (writebackId : Text)
  | void (decisionId : Text)

def Operation.thread (run : ι) : Operation → Run ι JobResult
  | .insert w => insertWriteback w
  | .post postingAllowed writebackId retry => runPostWriteback T parses postingAllowed run writebackId retry
  | .requeue writebackId => requeueWriteback writebackId
  | .void decisionId => voidSettlementPosting decisionId

/-- No row, and operations of which none has begun. -/
def start (operations : ι → Operation) : Config ι (Books ι) JobError JobResult where
  shared := ⟨[], [], [], fun _ => none, []⟩
  threads run := (operations run).thread T parses run

end

end

end Recouple.Qbo.PostingJob
