import Recouple.Pipeline.OpenCases

/-!
# Reading a document: `packages/pipeline/src/steps.ts` (340-401, 735-858, 942-1153), `hold.ts`, `jobs.ts` (264-382)

A delivery of `readDocumentJob` asks who sent it, finds the document and takes the read claim on it. A
document that has a recorded reading is answered from the record; any other is read, and the reading is
recorded in one transaction after another before a remittance's lines open their cases.

What the models answer is `Ports`, as are the two branches that no remittance advice reaches: a notice's
case and a spreadsheet's rows. The stored bytes and the rendition made of them are not modelled: a payload is
the document and its page text.
-/

namespace Recouple.Pipeline
open Js FirstSeen Extraction Calls

structure ReadOptions where
  attachToCase : Option CaseId := none
  allowCaseOpen : Option Bool := none

/-! ## What the ports answer -/

inductive TextSource
  | embedded
  | ocr
deriving DecidableEq

structure Payload where
  documentId : DocumentId
  pageText : Option (List Text)
  pageTextSource : TextSource

structure Classification where
  docType : DocType
  confidence : Rat
  call : ModelCallRecord

/-- An `ExtractionResult`: `misfits` is what `misfitFields` names, `lost` what `fieldsLostOnStorage` does. -/
structure Reading where
  docType : DocType
  advice : RemittanceAdvice
  schemaVersion : Text
  validated : Bool
  misfits : List Text
  lost : List Text
  call : ModelCallRecord

inductive ArrivalHold
  | by_email
  | by_portal
deriving DecidableEq

def ArrivalHold.reason : ArrivalHold → HoldReason
  | by_email => .by_email
  | by_portal => .by_portal

structure SpreadsheetContext where
  attachedCase : Option CaseRecord
  mayOpenCase : Bool
  heldByArrival : Option ArrivalHold
  floor : Option Rat

structure DocumentRead where
  classification : Option Classification := none
  reading : Option Reading := none
  caseRecord : Option CaseRecord := none
  remittance : Option RemittanceRead := none
  haltedBecause : Option Text := none
  held : Option DocumentHold := none

structure Ports where
  /-- Pages and the call that read them, or the call of an `OcrError`. -/
  ocr : Option (Payload → Except ModelCallRecord (List Text × ModelCallRecord))
  classify : Payload → Classification
  extract : Payload → DocType → Reading
  openCaseFromNotice : StoredDocument → Reading → Program CaseRecord
  readSpreadsheet : StoredDocument → SpreadsheetContext → Program DocumentRead
  tryParsePrintedDate : Text → Except Text Text

/-! ## The gate -/

/-- `HELD_FOR_REVIEW`. -/
def HELD_FOR_REVIEW : Text := "held_for_review".toList

/-- `opensCaseOnItsOwn`. -/
def opensCaseOnItsOwn (docType : DocType) : Bool := docType = .deduction_notice || docType = .remittance_advice

/-- `isProbability`. -/
def isProbability (value : Rat) : Bool := 0 ≤ value && value ≤ 1

/-- `classificationIsActionable`. -/
def classificationIsActionable (confidence minimum : Rat) : Bool :=
  isProbability confidence && isProbability minimum && minimum ≤ confidence

/-- `typeFits`: `none` where the reading fits, else the fields that do not. -/
def typeFits (docType : DocType) (reading : Reading) : Option (List Text) :=
  let noLines : Bool := docType = .remittance_advice && reading.advice.lines.isEmpty
  if reading.validated && !noLines then none
  else
    let fields := if reading.validated then [] else reading.misfits
    some (if noLines && "lines".toList ∉ fields then (fields ++ ["lines".toList]).insertionSort textLe else fields)

structure HoldDecision where
  reason : HoldReason
  fields : Option (List Text)
deriving DecidableEq

/-- `holdFor`. -/
def holdFor (docType : DocType) (confidence floor : Rat) (reading : Reading) : Option HoldDecision :=
  let actionable := classificationIsActionable confidence floor
  let fit := typeFits docType reading
  if actionable && fit.isNone then none
  else some ⟨if actionable then .type_did_not_fit else .below_floor, fit⟩

/-- Why a document's arrival alone holds it. -/
def heldByArrival : Option UploadSource → Option ArrivalHold
  | some .email_in => some .by_email
  | some .email_body => some .by_email
  | some .portal_fetch => some .by_portal
  | _ => none

/-! ## What is on record -/

/-- `resolveAttachTarget`. -/
def resolveAttachTarget (attachToCase : Option CaseId) : Program (Option CaseRecord) :=
  match attachToCase with
  | none => pure none
  | some id => do
    match ← ask fun s => s.getCase id with
    | none => throw (.caseNotFound id)
    | some found => if found.state = .merged then throw (.caseMergedAway id) else pure (some found)

structure RecordedRead where
  docType : DocType
  deductionId : Option CaseId := none
  held : Option DocumentHold := none
  fileOnCase : Option CaseId := none

/-- `recordedRead`. -/
def recordedRead (documentId : DocumentId) (options : ReadOptions) : Program (Option RecordedRead) := do
  match ← ask fun s => s.latestExtraction documentId with
  | none => pure none
  | some recorded =>
    match options.attachToCase with
    | some id =>
      let linked ← ask fun s => s.links.any fun l => l.deductionId = id && l.documentId = documentId
      if linked then pure (some { docType := recorded.docType, deductionId := some id })
      else pure (some { docType := recorded.docType, fileOnCase := some id })
    | none =>
      match ← ask fun s => s.caseForDocument documentId with
      | some deductionId => pure (some { docType := recorded.docType, deductionId := some deductionId })
      | none =>
        match ← ask fun s => s.documentHold documentId with
        | some held => pure (some { docType := recorded.docType, held := some held })
        | none =>
          -- a notice with no case, which this read may open one for
          if recorded.docType = .deduction_notice ∧ options.allowCaseOpen.getD true = true then pure none
          else pure (some { docType := recorded.docType })

structure AnsweredFromRecord where
  docType : DocType
  deductionId : Option CaseId := none
  held : Option DocumentHold := none
  filedOn : Option CaseRecord := none

/-- `answerFromRecord`. -/
def answerFromRecord (documentId : DocumentId) (options : ReadOptions) : Program (Option AnsweredFromRecord) := do
  match ← recordedRead documentId options with
  | none => pure none
  | some recorded =>
    match recorded.fileOnCase with
    | none => pure (some { docType := recorded.docType, deductionId := recorded.deductionId, held := recorded.held })
    | some id =>
      match ← resolveAttachTarget (some id) with
      | none => throw (.caseNotFound id)
      | some target =>
        let filed ← transact fun s =>
          let (filed, s) := s.attachEvidence target.orgId target.deductionId documentId recorded.docType
          (.ok filed, s)
        pure (some
          { docType := recorded.docType
            deductionId := some target.deductionId
            filedOn := if filed then some target else none })

/-! ## The read -/

/-- Whether the page text leaves OCR to do. -/
def needsOcr (pageText : Option (List Text)) : Bool :=
  (pageText.getD []).all fun text => (trim text).isEmpty

structure ReadableDocument where
  payload : Payload
  calls : List ModelCallRecord

section
variable (T : CaseTables) (tenant : Tenant) (ports : Ports)

/-- The page text that is stored with the document, or was recorded since. -/
def storedPageText (document : StoredDocument) : Program (Option (List Text)) :=
  match document.pageText with
  | some pages => pure (some pages)
  | none => ask fun s => s.pagesFor document.documentId

/-- `readablePayload`: the scan gate, then the page text, by OCR where there is none. -/
def readablePayload (document : StoredDocument) : Program ReadableDocument := do
  let clean ← ask fun _ => tenant.scannedClean document.documentId
  if clean = false then throw (.unscannedDocument document.documentId)
  else
    let pageText ← storedPageText document
    let payload : Payload := ⟨document.documentId, pageText, .embedded⟩
    match ports.ocr with
    | none => pure ⟨payload, []⟩
    | some ocr =>
      if needsOcr pageText = false then pure ⟨payload, []⟩
      else
        match ← ask fun _ => ocr payload with
        | .error call => pure ⟨payload, [call]⟩
        | .ok (pages, call) => do
          write (Store.recordPages document.documentId pages)
          pure ⟨⟨document.documentId, some pages, .ocr⟩, [call]⟩

/-- `recordTheRead`: the calls, the classification, the reading, each in its own transaction. -/
def recordTheRead (document : StoredDocument) (calls : List ModelCallRecord) (classification : Classification)
    (reading : Reading) (deductionId : Option CaseId) : Program Unit := do
  calls.forM fun call => write fun s => { s with modelCalls := s.modelCalls ++ [(call, deductionId)] }
  write fun s => { s with
    classifications := s.classifications ++
      [⟨document.documentId, classification.docType, classification.confidence⟩] }
  write fun s => { s with
    extractions := s.extractions ++ [⟨document.documentId, deductionId, reading.docType⟩] }
  -- `reportProvenanceGap`
  match deductionId, reading.lost with
  | some id, path :: paths =>
    write (Store.appendEvent ⟨document.orgId, id,
      .stored_without_provenance document.documentId reading.docType reading.schemaVersion (path :: paths)⟩)
  | _, _ => pure ()

/-- What a read knows before it fetches a page. -/
structure ReadSoFar where
  attachedCase : Option CaseRecord
  heldByArrival : Option ArrivalHold
  floor : Option Rat

def beforeTheRead (document : StoredDocument) (options : ReadOptions) : Program ReadSoFar := do
  let attachedCase ← resolveAttachTarget options.attachToCase
  match attachedCase with
  | some attached => pure ⟨some attached, none, none⟩
  | none =>
    let arrival ← ask fun _ => heldByArrival (tenant.arrival document.documentId)
    if options.allowCaseOpen.getD true = true ∨ arrival.isSome then do
      let floor ← ask fun _ => tenant.floor
      pure ⟨none, arrival, some floor⟩
    else pure ⟨none, arrival, none⟩

/-- The hold the gate decides, where a case would open by itself. -/
def gateHold (before : ReadSoFar) (classification : Classification) (reading : Reading) :
    Option (HoldDecision × Rat) :=
  match before.floor with
  | none => none
  | some floor =>
    if opensCaseOnItsOwn classification.docType = false then none
    else
      match before.heldByArrival with
      | some arrival => some (⟨arrival.reason, typeFits classification.docType reading⟩, floor)
      | none => (holdFor classification.docType classification.confidence floor reading).map fun hold => (hold, floor)

/-- What is left once the reading is in hand: record it, and open what it opens. -/
def afterTheRead (document : StoredDocument) (options : ReadOptions) (before : ReadSoFar)
    (calls : List ModelCallRecord) (classification : Classification) (reading : Reading) : Program DocumentRead := do
  let mayOpenCase := options.allowCaseOpen.getD true
  match gateHold before classification reading with
  | some (hold, floor) =>
    recordTheRead document calls classification reading none
    let held : DocumentHold :=
      ⟨document.documentId, document.orgId, classification.docType, classification.confidence, floor, hold.reason,
        hold.fields⟩
    write fun s => { s with auditLog := s.auditLog ++ [.held held] }
    pure { classification := some classification, reading := some reading, held := some held
           haltedBecause := some HELD_FOR_REVIEW }
  | none =>
    let caseRecord ←
      if classification.docType = .deduction_notice ∧ before.attachedCase = none ∧ mayOpenCase = true then
        handle (some <$> ports.openCaseFromNotice document reading) fun failure => do
          recordTheRead document calls classification reading none
          throw failure
      else pure before.attachedCase
    recordTheRead document calls classification reading (caseRecord.map (·.deductionId))
    let remittance ←
      if classification.docType = .remittance_advice ∧ caseRecord = none ∧ mayOpenCase = true then
        some <$> openCasesFromRemittance T tenant ports.tryParsePrintedDate ⟨document.documentId, document.orgId⟩
          ⟨reading.docType, reading.advice⟩ none
      else pure none
    match before.attachedCase with
    | none => pure ()
    | some attached => do
      write (Store.linkDocument ⟨attached.deductionId, document.documentId, .evidence⟩)
      write (Store.appendEvent ⟨document.orgId, attached.deductionId,
        .evidence_uploaded document.documentId classification.docType document.filename⟩)
    pure
      { classification := some classification
        reading := some reading
        caseRecord := caseRecord
        remittance := remittance
        haltedBecause :=
          if opensCaseOnItsOwn classification.docType ∧ caseRecord = none ∧ mayOpenCase = false then
            some ("a ".toList ++ classification.docType.text ++
              " from an unauthenticated sender: filed for a human to attach".toList)
          else none }

/-- `readDocument`. -/
def readDocument (document : StoredDocument) (options : ReadOptions) : Program DocumentRead := do
  let before ← beforeTheRead tenant document options
  if document.isSpreadsheet then
    ports.readSpreadsheet document
      ⟨before.attachedCase, options.allowCaseOpen.getD true, before.heldByArrival, before.floor⟩
  else
    let readable ← readablePayload tenant ports document
    let classification ← ask fun _ => ports.classify readable.payload
    let reading ← ask fun _ => ports.extract readable.payload classification.docType
    afterTheRead T tenant ports document options before
      (readable.calls ++ [classification.call, reading.call]) classification reading

/-! ## The job -/

structure ReadDocumentJobInput where
  documentId : DocumentId
  orgId : OrgId
  userId : UserId
  attachToCase : Option CaseId := none
  allowCaseOpen : Option Bool := none

def ReadDocumentJobInput.options (input : ReadDocumentJobInput) : ReadOptions :=
  ⟨input.attachToCase, input.allowCaseOpen⟩

structure ReadDocumentJobResult where
  documentId : DocumentId
  docType : Option DocType
  deductionId : Option CaseId
  haltedBecause : Option Text
  alreadyRead : Bool
  filedFromRecord : Bool
  remittanceCases : List CaseId
  held : Option HoldReason

/-- The work of a delivery under the read claim. -/
def readUnderClaim (document : StoredDocument) (options : ReadOptions) : Program ReadDocumentJobResult := do
  match ← answerFromRecord document.documentId options with
  | some already =>
    pure
      { documentId := document.documentId
        docType := some already.docType
        deductionId := already.deductionId
        haltedBecause := already.held.map fun _ => HELD_FOR_REVIEW
        alreadyRead := true
        filedFromRecord := already.filedOn.isSome
        remittanceCases := []
        held := already.held.map (·.reason) }
  | none =>
    let read ← readDocument T tenant ports document options
    pure
      { documentId := document.documentId
        docType := read.classification.map (·.docType)
        deductionId := read.caseRecord.map (·.deductionId)
        haltedBecause := read.haltedBecause
        alreadyRead := false
        filedFromRecord := false
        remittanceCases := (read.remittance.map fun r => r.opened.map (·.deductionId) ++ r.mergedInto).getD []
        held := read.held.map (·.reason) }

/-- `readDocumentJob`: no other delivery runs beside this one, so the read claim is always held, and a call
that lets it go follows the work however the work ends. -/
def readDocumentJob (input : ReadDocumentJobInput) : Program ReadDocumentJobResult := do
  let may ← ask fun _ => tenant.mayWrite input.orgId input.userId
  if may = false then throw (.invalidJobPayload input.documentId)
  else
    match ← ask fun _ => tenant.documents input.documentId with
    | none => throw (.documentNotFound input.documentId)
    | some document =>
      if document.orgId ≠ input.orgId then throw (.invalidJobPayload input.documentId)
      else
        ask fun _ => ()
        let result ← handle (readUnderClaim T tenant ports document input.options) fun failure => do
          ask fun _ => ()
          throw failure
        ask fun _ => ()
        pure result

/-- The store that a delivery of the job leaves, as its calls fail. -/
def deliver (input : ReadDocumentJobInput) (s : Store) (faults : Faults) : Store :=
  (readDocumentJob T tenant ports input).after faults s

end

end Recouple.Pipeline
