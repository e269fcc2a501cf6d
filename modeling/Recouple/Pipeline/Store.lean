import Recouple.Core.Resolution
import Recouple.Extraction.PagedRead
import Recouple.Lib.Calls

/-!
# The store a read writes to: `packages/pipeline/src/testing/memory-store.ts` (166-1010), `ports.ts`

The tables that reading a document writes, one list each, oldest row first, and the operations as
`InMemoryStore` makes them. What a read only looks up is the `Tenant`. Whether `openCase` refuses a case is
the tenant's `refusal`, for the two stores decide it differently; `uniqueClaim` is the rule of this one.
Ids are numbers, and a new case's is past every other's.
-/

namespace Recouple.Pipeline
open Js FirstSeen Extraction

abbrev OrgId := Nat
abbrev UserId := Nat
abbrev DebtorId := Nat
abbrev DocumentId := Nat

/-- `UPLOAD_SOURCES`. -/
inductive UploadSource
  | web_upload
  | email_in
  | email_body
  | erp_sync
  | portal_fetch
  | edi_812
  | manual_entry
deriving DecidableEq

def UploadSource.text : UploadSource → Text
  | web_upload => "web_upload"
  | email_in => "email_in"
  | email_body => "email_body"
  | erp_sync => "erp_sync"
  | portal_fetch => "portal_fetch"
  | edi_812 => "edi_812"
  | manual_entry => "manual_entry"

/-- `DOC_TYPES`. -/
inductive DocType
  | deduction_notice
  | remittance_advice
  | invoice
  | po
  | bol
  | pod
  | asn
  | correspondence
  | promo_agreement
  | price_agreement
  | routing_guide
  | other
deriving DecidableEq

def DocType.text : DocType → Text
  | deduction_notice => "deduction_notice"
  | remittance_advice => "remittance_advice"
  | invoice => "invoice"
  | po => "po"
  | bol => "bol"
  | pod => "pod"
  | asn => "asn"
  | correspondence => "correspondence"
  | promo_agreement => "promo_agreement"
  | price_agreement => "price_agreement"
  | routing_guide => "routing_guide"
  | other => "other"

/-- `DISCOVERED_VIA`. -/
inductive DiscoveredVia
  | notice
  | remittance_line
  | report_row
  | manual
deriving DecidableEq

/-- `CASE_STATES`. -/
inductive CaseState
  | discovered
  | classified
  | evidence_pending
  | evidence_complete
  | decided
  | auto_dispute_queued
  | analyst_review
  | auto_writeoff_queued
  | awaiting_approval
  | submitted
  | won
  | lost
  | partially
  | written_off
  | merged
  | removed
deriving DecidableEq

/-! ## Rows -/

structure CaseRecord where
  deductionId : CaseId
  orgId : OrgId
  state : CaseState
  claimId : Option Text
  retailerName : Option Text
  debtorId : Option DebtorId
  deductionAmountCents : Option Cents
  deductionDate : Option Text
  disputeDeadline : Option Text
  discoveredVia : DiscoveredVia
  reasonCodeAsPrinted : Option Text
deriving DecidableEq

/-- What `openCase` is given. -/
structure NewCase where
  orgId : OrgId
  claimId : Option Text
  retailerName : Option Text
  deductionAmountCents : Option Cents
  deductionDate : Option Text
  disputeDeadline : Option Text
  discoveredVia : DiscoveredVia
  reasonCodeAsPrinted : Option Text

inductive LinkRole
  | notice
  | evidence
deriving DecidableEq

structure Link where
  deductionId : CaseId
  documentId : DocumentId
  role : LinkRole
deriving DecidableEq

structure StoredIdentifier where
  orgId : OrgId
  known : KnownIdentifier
deriving DecidableEq

/-- `HOLD_REASONS`. -/
inductive HoldReason
  | below_floor
  | type_did_not_fit
  | by_email
  | no_mapping
  | by_portal
deriving DecidableEq

structure DocumentHold where
  documentId : DocumentId
  orgId : OrgId
  docType : DocType
  confidence : Rat
  floor : Rat
  reason : HoldReason
  fields : Option (List Text)
deriving DecidableEq

/-- A person's say-so on a held document. -/
structure HoldConfirmation where
  confirmedBy : UserId
  confidence : Rat
  floor : Rat
  reason : HoldReason
  fields : Option (List Text)
  missingOnOpen : Option (List Text)
deriving DecidableEq

/-- `RemittanceLineOutcome`. -/
inductive RemittanceLineOutcome
  | opened
  | merged
  | probable_duplicate
  | below_tolerance
  | below_tolerance_unattributed
  | not_short_paid
  | unreadable
deriving DecidableEq

structure RemittanceLineResult where
  index : Nat
  outcome : RemittanceLineOutcome
  invoiceNumber : Option Text := none
  amountCents : Option Cents := none
  probableDuplicateOf : Option (List CaseId) := none
  reasonCode : Option Text := none
  deductionId : Option CaseId := none
  detail : Option Text := none
deriving DecidableEq

/-- The payload of `case.discovered` on a remittance line's case. -/
structure Discovered where
  documentId : DocumentId
  claimId : Text
  invoiceNumber : Text
  identifiersRecorded : Nat
  identifiersUnrecorded : Option Text
  probableDuplicateOf : Option (List CaseId)
  probableDuplicateBasis : Option (List Text)
  paymentReference : Option Text
  retailerName : Option Text
  debtorId : Option DebtorId
  deductionDate : Option Text
  deductionAmountCents : Cents
  reasonCodeAsPrinted : Option Text
  amountIsPrinted : Bool
  grossAmountCents : Option Cents
  retailerNameUnread : Option Text
  deductionDateUnread : Option Text
  confirmation : Option HoldConfirmation
deriving DecidableEq

/-- The payload of `case.merged_duplicate_line`. -/
structure MergedLine where
  documentId : DocumentId
  docType : DocType
  invoiceNumber : Text
  deductionAmountCents : Cents
  reasonCodeAsPrinted : Option Text
  matchedOn : List Text
  detail : Option Text
  confirmation : Option HoldConfirmation
deriving DecidableEq

/-- The payload of `remittance.lines_processed`. -/
structure LinesProcessed where
  documentId : DocumentId
  docType : DocType
  linesRead : Nat
  counts : List (RemittanceLineOutcome × Nat)
  opened : List CaseId
  mergedInto : List CaseId
  lines : List RemittanceLineResult
deriving DecidableEq

/-- A case's events, by type. -/
inductive CaseEvent
  | discovered (payload : Discovered)
  | possible_duplicate (other : CaseId) (basis : List Text)
  | classified (docType : DocType) (schemaVersion : Text)
  | merged_duplicate_line (payload : MergedLine)
  | lines_processed (payload : LinesProcessed)
  | evidence_uploaded (documentId : DocumentId) (docType : DocType) (filename : Text)
  | evidence_attached (documentId : DocumentId) (docType : DocType)
  | stored_without_provenance (documentId : DocumentId) (docType : DocType) (schemaVersion : Text) (fields : List Text)
deriving DecidableEq

structure StoredEvent where
  orgId : OrgId
  deductionId : CaseId
  event : CaseEvent
deriving DecidableEq

/-- A row of `declined_candidates` with no case. -/
structure DeclinedLine where
  orgId : OrgId
  documentId : DocumentId
  discoveredFrom : UploadSource
  estimatedRecoverableCents : Cents
  invoiceNumber : Text
  paymentReference : Option Text
  reasonCode : Option Text
  decidedByVersion : Text
  detail : Text
deriving DecidableEq

/-- A row of `audit_log`: a hold, or its release. -/
inductive AuditRow
  | held (hold : DocumentHold)
  | hold_released (documentId : DocumentId)
deriving DecidableEq

def AuditRow.documentId : AuditRow → DocumentId
  | held hold => hold.documentId
  | hold_released documentId => documentId

/-- A recorded reading: the document, and the type it was read as. -/
structure StoredExtraction where
  documentId : DocumentId
  deductionId : Option CaseId
  docType : DocType
deriving DecidableEq

structure StoredClassification where
  documentId : DocumentId
  docType : DocType
  confidence : Rat
deriving DecidableEq

structure Store where
  cases : List CaseRecord := []
  links : List Link := []
  identifiers : List StoredIdentifier := []
  events : List StoredEvent := []
  declinedLines : List DeclinedLine := []
  modelCalls : List (ModelCallRecord × Option CaseId) := []
  classifications : List StoredClassification := []
  extractions : List StoredExtraction := []
  pages : List (DocumentId × List Text) := []
  auditLog : List AuditRow := []
deriving DecidableEq

/-! ## What a read looks up -/

structure RemittanceSettings where
  toleranceCents : Nat
  toleranceBps : Nat
  dedupDays : Nat

structure StoredDocument where
  documentId : DocumentId
  orgId : OrgId
  filename : Text
  isSpreadsheet : Bool
  pageText : Option (List Text)

/-- Why `openCase` refuses: `DuplicateCaseError`, `AmbiguousIdentityError`. -/
inductive Refusal
  | duplicateCase (existing : CaseId)
  | ambiguousIdentity (candidates : List CaseId)
deriving DecidableEq

/-- The rows a read never writes. `debtorOf` is `resolveDebtorId` over the tenant's debtors. -/
structure Tenant where
  mayWrite : OrgId → UserId → Bool
  documents : DocumentId → Option StoredDocument
  scannedClean : DocumentId → Bool
  arrival : DocumentId → Option UploadSource
  settings : OrgId → RemittanceSettings
  floor : Rat
  debtorOf : Text → Option DebtorId
  refusal : Store → NewCase → Option Refusal

/-- What a step throws. -/
inductive Failure
  /-- A store or a port that does not answer. -/
  | unavailable
  | duplicateCase (existing : CaseId)
  | ambiguousIdentity (candidates : List CaseId)
  | lineProvenanceUnknown (documentId : DocumentId)
  | caseNotFound (deductionId : CaseId)
  | caseMergedAway (deductionId : CaseId)
  | documentNotFound (documentId : DocumentId)
  | invalidJobPayload (documentId : DocumentId)
  | unscannedDocument (documentId : DocumentId)
  | illegalTransition (source target : CaseState)
  | missingShortPay (index : Nat)
  | money (error : MoneyError)
  | identity (message : Text)
deriving DecidableEq

def Refusal.failure : Refusal → Failure
  | duplicateCase existing => .duplicateCase existing
  | ambiguousIdentity candidates => .ambiguousIdentity candidates

/-- `LineProvenanceUnknownError`. -/
def lineProvenanceUnknownMessage (documentId : DocumentId) : Text :=
  "document ".toList ++ decimal documentId ++ " records no arrival — observed or asserted — so a line ".toList ++
    "declined from it cannot be attributed to the channel that found it. An operator ".toList ++
    "can record how it arrived with `pnpm link:provenance` (ADR 0024)".toList

/-! ## Operations -/

namespace Store

def getCase (s : Store) (id : CaseId) : Option CaseRecord := s.cases.find? (·.deductionId = id)

/-- `randomUUID`. -/
def freshId (s : Store) : CaseId := (s.cases.map (·.deductionId)).foldr max 0 + 1

/-- The rule of `unique (org_id, debtor_id, claim_id)`: a case with no debtor or no claim never collides. -/
def uniqueClaim (debtorOf : Text → Option DebtorId) (s : Store) (input : NewCase) : Option Refusal :=
  match input.retailerName.bind debtorOf, input.claimId with
  | some debtor, some claim =>
    (s.cases.find? fun c => c.orgId = input.orgId && c.debtorId = some debtor && c.claimId = some claim).map
      fun existing => .duplicateCase existing.deductionId
  | _, _ => none

/-- The row `openCase` inserts. -/
def newRecord (tenant : Tenant) (s : Store) (input : NewCase) : CaseRecord where
  deductionId := s.freshId
  orgId := input.orgId
  state := .discovered
  claimId := input.claimId
  retailerName := input.retailerName
  debtorId := input.retailerName.bind tenant.debtorOf
  deductionAmountCents := input.deductionAmountCents
  deductionDate := input.deductionDate
  disputeDeadline := input.disputeDeadline
  discoveredVia := input.discoveredVia
  reasonCodeAsPrinted := input.reasonCodeAsPrinted

def openCase (tenant : Tenant) (input : NewCase) (s : Store) : Except Failure CaseRecord × Store :=
  match tenant.refusal s input with
  | some refusal => (.error refusal.failure, s)
  | none => (.ok (s.newRecord tenant input), { s with cases := s.cases ++ [s.newRecord tenant input] })

def setState (id : CaseId) (target : CaseState) (s : Store) : Store :=
  { s with cases := s.cases.map fun c => if c.deductionId = id then { c with state := target } else c }

def transitionCase (id : CaseId) (target : CaseState) (s : Store) : Except Failure CaseRecord × Store :=
  match s.getCase id with
  | none => (.error (.caseNotFound id), s)
  | some current => (.ok { current with state := target }, s.setState id target)

/-- A link already there is not written again. -/
def linkDocument (link : Link) (s : Store) : Store :=
  if link ∈ s.links then s else { s with links := s.links ++ [link] }

def appendEvent (event : StoredEvent) (s : Store) : Store := { s with events := s.events ++ [event] }

/-- One identifier of `recordIdentifiers`, unless `unique (org_id, source, identifier_kind, identifier)`
has it. -/
def recordIdentifier (row : StoredIdentifier) (acc : Store × Nat × List Text) : Store × Nat × List Text :=
  let (s, written, taken) := acc
  if trim row.known.identifier = [] then acc
  else
    match s.identifiers.find? fun r => r.orgId = row.orgId && r.known.source = row.known.source &&
        r.known.kind = row.known.kind && r.known.identifier = row.known.identifier with
    | some clash =>
      (s, written, if clash.known.deductionId = row.known.deductionId then taken else taken ++ [row.known.kind.text])
    | none => ({ s with identifiers := s.identifiers ++ [row] }, written + 1, taken)

/-- `recordIdentifiers`: how many were written, and why the others were not. -/
def recordIdentifiers (tenant : Tenant) (orgId : OrgId) (deductionId : CaseId) (documentId : DocumentId)
    (identifiers : List ArrivedIdentifier) (s : Store) : (Nat × Option Text) × Store :=
  match tenant.arrival documentId with
  | none =>
    ((0, some ("document ".toList ++ decimal documentId ++
      " records no arrival, so no source can be named".toList)), s)
  | some source =>
    let rows := identifiers.map fun arrived =>
      (⟨orgId, deductionId, source.text, arrived.kind, arrived.identifier⟩ : StoredIdentifier)
    let (s, written, taken) := rows.foldl (fun acc row => recordIdentifier row acc) (s, 0, [])
    ((written, if taken = [] then none else
      some ("another case already holds this tenant's ".toList ++ ", ".toList.intercalate taken ++
        " for ".toList ++ source.text)), s)

/-- `identityCandidates`: the identifiers that fold to a wanted one, and the cases filed against the
invoice. -/
def identityCandidates (T : CaseTables) (orgId : OrgId) (identifiers : List ArrivedIdentifier) (invoiceNumber : Text)
    (s : Store) : List KnownIdentifier × List KnownDeduction :=
  let own := (s.identifiers.filter (·.orgId = orgId)).map (·.known)
  let wanted (k : KnownIdentifier) : Bool := identifiers.any fun arrived =>
    arrived.kind = k.kind && identifierMatchKey T arrived.identifier ≠ [] &&
      identifierMatchKey T arrived.identifier = identifierMatchKey T k.identifier
  let byInvoice := firstSeen ((own.filter fun k => k.kind = .invoice_number &&
    identifierMatchKey T k.identifier = identifierMatchKey T invoiceNumber).map (·.deductionId))
  (own.filter wanted,
    byInvoice.filterMap fun id => (s.getCase id).bind fun record => record.deductionAmountCents.map fun amount =>
      ⟨id, amount, some invoiceNumber, record.deductionDate, record.debtorId⟩)

/-- `recordDeclinedLine`: the channel is the document's own arrival. -/
def recordDeclinedLine (tenant : Tenant) (line : UploadSource → DeclinedLine) (documentId : DocumentId) (s : Store) :
    Except Failure Unit × Store :=
  match tenant.arrival documentId with
  | none => (.error (.lineProvenanceUnknown documentId), s)
  | some source => (.ok (), { s with declinedLines := s.declinedLines ++ [line source] })

/-- `latestExtraction`. -/
def latestExtraction (s : Store) (documentId : DocumentId) : Option StoredExtraction :=
  (s.extractions.filter (·.documentId = documentId)).getLast?

/-- `caseForDocument`: the notice link first. -/
def caseForDocument (s : Store) (documentId : DocumentId) : Option CaseId :=
  let links := s.links.filter (·.documentId = documentId)
  ((links.find? (·.role = .notice)).or links.head?).map (·.deductionId)

/-- `documentHold`: the latest hold that no release has followed. -/
def documentHold (s : Store) (documentId : DocumentId) : Option DocumentHold :=
  match (s.auditLog.filter (·.documentId = documentId)).getLast? with
  | some (.held hold) => some hold
  | _ => none

def pagesFor (s : Store) (documentId : DocumentId) : Option (List Text) :=
  (s.pages.find? (·.1 = documentId)).map (·.2)

def recordPages (documentId : DocumentId) (pages : List Text) (s : Store) : Store :=
  { s with pages := (documentId, pages) :: s.pages.filter (·.1 ≠ documentId) }

/-- `attachEvidence`: the link and its event, unless the case holds the document. -/
def attachEvidence (orgId : OrgId) (deductionId : CaseId) (documentId : DocumentId) (docType : DocType) (s : Store) :
    Bool × Store :=
  if s.links.any fun l => l.deductionId = deductionId && l.documentId = documentId then (false, s)
  else
    (true, { s with
      links := s.links ++ [⟨deductionId, documentId, .evidence⟩]
      events := s.events ++ [⟨orgId, deductionId, .evidence_attached documentId docType⟩] })

end Store

end Recouple.Pipeline
