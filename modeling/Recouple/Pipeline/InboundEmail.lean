import Recouple.Lib.Calls
import Recouple.Lib.Rows
import Recouple.Pipeline.EmailParts
import Recouple.Pipeline.Store

/-!
# Email-in's two halves: `packages/pipeline/src/inbound.ts` (97-247)

| here | there |
| --- | --- |
| `ingestDocument`, `arrivalThenDocument` | `packages/pipeline/src/steps.ts` (207-303) |
| `withMessageClaim`, `receivedMessage`, `inboundReadsLastDay` | `packages/store-postgres/src/inbound.ts` (224-364) |
| `recordInboundMessage` | `app.record_inbound_message`, migration 0034 (384-520) |
| `receivePart`, `receiveInboundEmail` | `inbound.ts` (97-182) |
| `readInboundEmailJob` | `inbound.ts` (198-247) |

Every call is a transaction on the tenant's rows and may be lost, or take effect and lose its answer. What everyone
else commits comes between the calls (`InboundDeps.others`); `writes` counts the rows this email's deliveries wrote,
and `asked` lists the documents the job had read.
-/

namespace Recouple.InboundEmail
open Js Calls
open PortalJob (RejectionCode ScanStatus)
open Pipeline (UploadSource DocType)

def INBOUND_READS_PER_DAY : Nat := 100

inductive InboundError
  | actingMemberRefused (orgId addressId : Text)
  | scanUnavailable (orgId documentId : Text)
  | rejectedUpload (code : RejectionCode)
  | invalidJobPayload
  /-- What the store, the scanner or the reader throws. -/
  | other

/-! ## The tenant's rows -/

structure UploadRecord where
  uploadId : Text
  source : UploadSource

structure StoredDocument where
  documentId : Text
  sha256 : Text
  filename : Text
  mimeType : Text
  byteSize : Nat
  bytes : List UInt8
  pageText : Option (List Text)
  requiresSplit : Bool
  uploadId : Text

inductive DkimVerdict | pass | fail | none | unknown
inductive SpfVerdict | pass | fail | softfail | neutral | none | unknown

structure InboundVerdict where
  authenticated : Bool
  dkim : DkimVerdict
  dmarc : DkimVerdict
  spf : SpfVerdict
  senderDomain : Option Text

inductive InboundMessageOutcome | received | not_received | refused_retired
deriving DecidableEq

structure InboundPartRecord where
  ordinal : Nat
  kind : InboundPartKind
  filename : Text
  outcome : InboundPartOutcome
  documentId : Option Text

structure InboundMessageRecord where
  addressId : Text
  providerMessageId : Text
  outcome : InboundMessageOutcome
  verdict : Option InboundVerdict

structure InboundMessage where
  id : Text
  row : InboundMessageRecord
  /-- In milliseconds. -/
  receivedAt : Int
  parts : List InboundPartRecord

structure World where
  clock : Nat
  uploads : List UploadRecord
  documents : List StoredDocument
  scans : List (Text × ScanStatus)
  messages : List InboundMessage
  writes : Nat
  asked : List Text

namespace World

def tick (w : World) : World := { w with clock := w.clock + 1 }

def findDocumentByHash (w : World) (sha256 : Text) : Option StoredDocument := Rows.lookup (·.sha256) w.documents sha256

def latestScan (w : World) (documentId : Text) : Option ScanStatus :=
  ((w.scans.filter fun scan => scan.1 = documentId).getLast?).map (·.2)

def uploadSourceFor (w : World) (documentId : Text) : Option UploadSource := do
  let document ← Rows.lookup (·.documentId) w.documents documentId
  let upload ← Rows.lookup (·.uploadId) w.uploads document.uploadId
  return upload.source

/-- The rows of one message that are of one outcome. -/
def messagesOf (w : World) (providerMessageId : Text) (outcome : InboundMessageOutcome) : List InboundMessage :=
  w.messages.filter fun m => m.row.providerMessageId = providerMessageId ∧ m.row.outcome = outcome

end World

/-- Parts the job reads, and the ones the daily budget counts. -/
def InboundPartOutcome.Readable (outcome : InboundPartOutcome) : Prop := outcome = .stored ∨ outcome = .already_held

instance (outcome : InboundPartOutcome) : Decidable outcome.Readable :=
  inferInstanceAs (Decidable (outcome = .stored ∨ outcome = .already_held))

/-! ## The calls -/

structure AcceptedUpload where
  sha256 : Text
  mimeType : Text
  byteSize : Nat
  requiresSplit : Bool

inductive Busy | held | no_connection
deriving DecidableEq

structure ReadDocumentJobResult where
  documentId : Text
  docType : Option DocType

/-- What is not this code's own, by the clock of the call: the front door, the scanner, the reader of one document,
whether the database takes a write, and what everyone else commits before the call. -/
structure InboundDeps where
  memberMayWrite (orgId userId : Text) : Nat → Except InboundError Bool
  /-- Why this delivery does not get the message's claim. -/
  claim : Nat → Except InboundError (Option Busy)
  accept (source : UploadSource) (filename : Text) (declaredMimeType : Option Text) (bytes : List UInt8) :
    Except InboundError AcceptedUpload
  /-- The text layer of a spreadsheet. -/
  sheetText (mimeType : Text) (bytes : List UInt8) : Option (List Text)
  decode : List UInt8 → Text
  scan (bytes : List UInt8) : Nat → Except InboundError ScanStatus
  readDocument (documentId : Text) : Nat → Except InboundError ReadDocumentJobResult
  admits : Nat → Except InboundError Unit
  randomUUID : Nat → Text
  now : Nat → Int
  others : Nat → World → World

abbrev Delivery (α : Type) := Calls World InboundError α

section
variable (deps : InboundDeps)

def transact {α : Type} (f : World → Except InboundError α × World) : Delivery α :=
  call .other fun w => ((f (deps.others w.clock w)).1, (f (deps.others w.clock w)).2.tick)

def ask {α : Type} (answer : Nat → World → Except InboundError α) : Delivery α :=
  transact deps fun w => (answer w.clock w, w)

/-- A write, where the database takes it. -/
def write {α : Type} (f : World → Except InboundError α × World) : Delivery α :=
  transact deps fun w =>
    match deps.admits w.clock with
    | .error e => (.error e, w)
    | .ok () => f w

def throwIf (broken : Prop) [Decidable broken] (error : InboundError) : Delivery Unit :=
  if broken then throw error else pure ()

/-! ## One document -/

def recordUpload (source : UploadSource) : Delivery Text :=
  write deps fun w =>
    let uploadId := deps.randomUUID w.clock
    (.ok uploadId, { w with uploads := w.uploads ++ [⟨uploadId, source⟩], writes := w.writes + 1 })

/-- The insert of a document whose id or hash the tenant holds already is refused. -/
def putDocument (document : Text → StoredDocument) : Delivery StoredDocument :=
  write deps fun w =>
    let stored := document (deps.randomUUID w.clock)
    if (w.findDocumentByHash stored.sha256).isSome ∨ (Rows.lookup (·.documentId) w.documents stored.documentId).isSome
    then (.error .other, w)
    else (.ok stored, { w with documents := w.documents ++ [stored], writes := w.writes + 1 })

def recordScan (documentId : Text) (status : ScanStatus) : Delivery Unit :=
  write deps fun w => (.ok (), { w with scans := w.scans ++ [(documentId, status)], writes := w.writes + 1 })

structure IngestInput where
  filename : Text
  bytes : List UInt8
  declaredMimeType : Option Text
  source : UploadSource
  pageText : Option (List Text)

structure IngestResult where
  document : StoredDocument
  verdict : ScanStatus
  deduplicated : Bool

/-- Its arrival and then its row, one transaction each. -/
def arrivalThenDocument (input : IngestInput) (accepted : AcceptedUpload) : Delivery StoredDocument := do
  let uploadId ← recordUpload deps input.source
  putDocument deps fun documentId =>
    { documentId := documentId, sha256 := accepted.sha256, filename := input.filename, mimeType := accepted.mimeType,
      byteSize := accepted.byteSize, bytes := input.bytes,
      pageText := input.pageText.or (deps.sheetText accepted.mimeType input.bytes),
      requiresSplit := accepted.requiresSplit, uploadId := uploadId }

def scanned (document : StoredDocument) (bytes : List UInt8) (deduplicated : Bool) : Delivery IngestResult := do
  let verdict ← ask deps fun clock _ => deps.scan bytes clock
  recordScan deps document.documentId verdict
  return ⟨document, verdict, deduplicated⟩

/-- A clean or infected verdict is final; a document stored without one is scanned again. -/
def ingestDocument (input : IngestInput) : Delivery IngestResult := do
  let accepted ← lift (deps.accept input.source input.filename input.declaredMimeType input.bytes)
  match ← ask deps fun _ w => .ok (w.findDocumentByHash accepted.sha256) with
  | none => scanned deps (← arrivalThenDocument deps input accepted) input.bytes false
  | some existing =>
    match ← ask deps fun _ w => .ok (w.latestScan existing.documentId) with
    | some .clean => return ⟨existing, .clean, true⟩
    | some .infected => return ⟨existing, .infected, true⟩
    | some .error => scanned deps existing input.bytes true
    | none => scanned deps existing input.bytes true

/-! ## The message -/

structure InboundEmail where
  providerMessageId : Text
  verdict : InboundVerdict
  parts : List InboundPartPlan

structure InboundAddressResolution where
  addressId : Text
  orgId : Text
  actingMember : Text
  retired : Bool

inductive InboundReceipt
  | recorded (inboundMessageId : Text) (alreadyRecorded : Bool) (parts : List InboundPartRecord)
  | busy (reason : Busy)

/-- The claim is a lock of a transaction that commits once the work has returned. -/
def withMessageClaim (work : Delivery InboundReceipt) : Delivery InboundReceipt := do
  match ← ask deps fun clock _ => deps.claim clock with
  | some reason => return .busy reason
  | none =>
    let result ← work
    ask deps fun _ _ => .ok ()
    return result

def receivedMessage (providerMessageId : Text) : Delivery (Option Text) :=
  ask deps fun _ w => .ok ((w.messagesOf providerMessageId .received).head?.map (·.id))

def inboundReadsLastDay : Delivery Nat :=
  ask deps fun clock w =>
    .ok (((w.messages.filter fun m => deps.now clock - 24 * 60 * 60 * 1000 < m.receivedAt).flatMap (·.parts)).countP
      fun part => part.outcome.Readable)

/-- A part recorded as stored names a document that arrived through the email's own door. -/
def cameByEmail (w : World) (part : InboundPartRecord) : Bool :=
  part.outcome ≠ .stored ||
    (part.documentId.bind w.uploadSourceFor) = some (if part.kind = .body then .email_body else .email_in)

def recordInboundMessage (message : InboundMessageRecord) (parts : List InboundPartRecord) : Delivery Text :=
  write deps fun w =>
    match (w.messagesOf message.providerMessageId message.outcome).head? with
    | some existing => (.ok existing.id, w)
    | none =>
      let id := deps.randomUUID w.clock
      if (Rows.lookup (·.id) w.messages id).isSome ∨ ¬ parts.all (cameByEmail w) then (.error .other, w)
      else (.ok id, { w with messages := w.messages ++ [⟨id, message, deps.now w.clock, parts⟩], writes := w.writes + 1 })

/-- The input of a file part: the body is its own text layer. -/
def ingestInput (part : InboundFilePart) : IngestInput :=
  { filename := part.filename, bytes := part.bytes, declaredMimeType := part.declaredMimeType,
    source := if part.kind = .body then .email_body else .email_in,
    pageText := if part.kind = .body then some [deps.decode part.bytes] else none }

/-- The front door's refusal of one part, and every other failure thrown on. -/
def orRejected (work : Delivery IngestResult) : Delivery (RejectionCode ⊕ IngestResult) :=
  handle (do return .inr (← work)) fun e =>
    match e with
    | .rejectedUpload code => pure (.inl code)
    | e => throw e

/-- One part of the loop: the reads counted so far, and the parts recorded. -/
def receivePart (address : InboundAddressResolution) (soFar : Nat × List InboundPartRecord) (plan : InboundPartPlan) :
    Delivery (Nat × List InboundPartRecord) :=
  match plan with
  | .refused part => return (soFar.1, soFar.2 ++ [⟨part.ordinal, part.kind, part.filename, part.outcome, none⟩])
  | .file part => do
    match ← orRejected (ingestDocument deps (ingestInput deps part)) with
    | .inl code => return (soFar.1, soFar.2 ++ [⟨part.ordinal, part.kind, part.filename, .rejected code, none⟩])
    | .inr ingested =>
      let documentId := ingested.document.documentId
      let record := fun outcome : InboundPartOutcome =>
        soFar.2 ++ [⟨part.ordinal, part.kind, part.filename, outcome, some documentId⟩]
      match ingested.verdict with
      | .error => throw (.scanUnavailable address.orgId documentId)
      | .infected => return (soFar.1, record .not_clean)
      | .clean =>
        if INBOUND_READS_PER_DAY ≤ soFar.1 then return (soFar.1, record .over_daily_budget)
        else return (soFar.1 + 1, record (if ingested.deduplicated then .already_held else .stored))

def receiveParts (email : InboundEmail) (address : InboundAddressResolution) : Delivery InboundReceipt := do
  match ← receivedMessage deps email.providerMessageId with
  | some existing => return .recorded existing true []
  | none =>
    let reads ← inboundReadsLastDay deps
    let received ← email.parts.foldlM (receivePart deps address) (reads, [])
    let inboundMessageId ← recordInboundMessage deps
      { addressId := address.addressId, providerMessageId := email.providerMessageId, outcome := .received,
        verdict := some email.verdict } received.2
    return .recorded inboundMessageId false received.2

def receiveInboundEmail (email : InboundEmail) (address : InboundAddressResolution) : Delivery InboundReceipt := do
  throwIf address.retired .other
  let mayWrite ← ask deps fun clock _ => deps.memberMayWrite address.orgId address.actingMember clock
  throwIf (mayWrite = false) (.actingMemberRefused address.orgId address.addressId)
  withMessageClaim deps (receiveParts deps email address)

/-! ## The job -/

structure ReadInboundEmailJobInput where
  orgId : Text
  userId : Text
  inboundMessageId : Text

structure ReadInboundEmailJobResult where
  inboundMessageId : Text
  reads : List ReadDocumentJobResult
  bodyRead : Bool

/-- The parts of one message, by their ordinals. -/
def inboundMessageParts (inboundMessageId : Text) : Delivery (List InboundPartRecord) :=
  ask deps fun _ w => .ok <|
    ((Rows.lookup (·.id) w.messages inboundMessageId).elim [] (·.parts)).insertionSort fun a b => a.ordinal ≤ b.ordinal

def readOne (documentId : Text) : Delivery ReadDocumentJobResult :=
  transact deps fun w => (deps.readDocument documentId w.clock, { w with asked := w.asked ++ [documentId] })

/-- The document of a part the job may read. -/
def InboundPartRecord.readable? (part : InboundPartRecord) : Option Text :=
  if part.outcome.Readable then part.documentId else none

/-- One part of the loop: the documents asked for so far, and their reads. -/
def readAttachment (soFar : List Text × List ReadDocumentJobResult) (part : InboundPartRecord) :
    Delivery (List Text × List ReadDocumentJobResult) :=
  match part.readable? with
  | none => pure soFar
  | some documentId =>
    if part.kind = .body ∨ documentId ∈ soFar.1 then pure soFar
    else do
      let read ← readOne deps documentId
      return (soFar.1 ++ [documentId], soFar.2 ++ [read])

def noticeAmong (reads : List ReadDocumentJobResult) : Bool := reads.any fun read => read.docType = some .deduction_notice

/-- The document of the body, where it can be read. -/
def bodyDocument (parts : List InboundPartRecord) : Option Text :=
  (parts.find? fun part => part.kind = .body ∧ part.readable?.isSome).bind (·.readable?)

def readInboundEmailJob (input : ReadInboundEmailJobInput) : Delivery ReadInboundEmailJobResult := do
  let mayWrite ← ask deps fun clock _ => deps.memberMayWrite input.orgId input.userId clock
  throwIf (mayWrite = false) .invalidJobPayload
  let parts ← inboundMessageParts deps input.inboundMessageId
  let (asked, reads) ← parts.foldlM (readAttachment deps) ([], [])
  match bodyDocument parts with
  | none => return ⟨input.inboundMessageId, reads, false⟩
  | some documentId =>
    if noticeAmong reads ∨ documentId ∈ asked then return ⟨input.inboundMessageId, reads, false⟩
    else
      let read ← readOne deps documentId
      return ⟨input.inboundMessageId, reads ++ [read], true⟩

end

end Recouple.InboundEmail
