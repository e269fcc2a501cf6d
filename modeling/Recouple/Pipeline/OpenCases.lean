import Recouple.Pipeline.RemittanceLines
import Recouple.Pipeline.Store

/-!
# Opening cases from a remittance: `packages/pipeline/src/steps.ts` (1174-1232, 1433-1983, 2113-2417, 2612-2653)

`openCasesFromRemittance` goes through the lines of an advice one at a time: each is unreadable, paid,
declined under the tenant's floor, merged into a case that is already this deduction, or opened. Every store
operation is a call that may fail (`Lib/Calls`).

The claim on an invoice writes nothing and no other delivery runs beside this one, so `withInvoiceClaim` is
the call that takes it, the work, and the call that lets it go. `tryParsePrintedDate` is a parameter.
-/

namespace Recouple.Pipeline
open Js FirstSeen Extraction Calls

abbrev Program (α : Type) := Calls Store Failure α

/-- A call to the store that writes in one transaction. -/
def transact {α : Type} (f : Store → Except Failure α × Store) : Program α := call .unavailable f

def ask {α : Type} (f : Store → α) : Program α := call .unavailable fun s => (.ok (f s), s)

def write (f : Store → Store) : Program Unit := call .unavailable fun s => (.ok (), f s)

/-- Takes the claim on the invoice, works, and lets it go. -/
def withInvoiceClaim {α : Type} (work : Program α) : Program α := do
  ask fun _ => ()
  let result ← work
  ask fun _ => ()
  pure result

/-! ## What the head of the advice prints -/

/-- A field as printed, or why it would not be read. -/
structure PrintedField where
  value : Option Text := none
  problem : Option Text := none

/-- `MAX_RETAILER_NAME_LENGTH`. -/
def MAX_RETAILER_NAME_LENGTH : Nat := 500

/-- `printedRetailerName`. -/
def printedRetailerName (field : Option Text) : PrintedField :=
  match field with
  | none => {}
  | some text =>
    let trimmed := trim text
    if trimmed = [] then {}
    else if utf16Length trimmed > MAX_RETAILER_NAME_LENGTH then
      { problem := some ("the printed retailer name is ".toList ++ decimal (utf16Length trimmed) ++
          " characters, longer than the ".toList ++ decimal MAX_RETAILER_NAME_LENGTH ++ " a case stores".toList) }
    else { value := some trimmed }

/-- `printedDate`. -/
def printedDate (tryParsePrintedDate : Text → Except Text Text) (field : Option Text) : PrintedField :=
  match field with
  | none => {}
  | some text =>
    if trim text = [] then {}
    else
      match tryParsePrintedDate text with
      | .ok date => { value := some date }
      | .error problem => { problem := some problem }

/-! ## The document and the line -/

structure CaseOpeningDocument where
  documentId : DocumentId
  orgId : OrgId

structure CaseOpeningReading where
  docType : DocType
  advice : RemittanceAdvice

/-- What the line loop reads of the document and the whole advice. -/
structure Opening where
  document : CaseOpeningDocument
  docType : DocType
  payer : PrintedField
  paymentReference : Option Text
  paymentDate : PrintedField
  settings : RemittanceSettings
  keys : List (Option LineKey)
  shortPays : List ShortPay
  confirmation : Option HoldConfirmation

/-- A line with a short-pay over the floor. -/
structure ShortLine where
  index : Nat
  invoiceNumber : Text
  reasonCode : Option Text
  grossCents : Option Cents
  amountCents : Cents
  basis : AmountBasis

/-- The claim id the line builds. -/
def Opening.claimIdOf (o : Opening) (line : ShortLine) : Text :=
  ((o.keys[line.index]?.join).map (·.claimId)).getD (lineClaimId o.paymentReference line.invoiceNumber)

/-- `clearsRemittanceTolerance`. -/
def clearsRemittanceTolerance (deltaCents : Cents) (grossCents : Option Cents) (settings : RemittanceSettings) : Bool :=
  decide ((settings.toleranceCents : Int) ≤ deltaCents.val) &&
    grossCents.all fun gross => decide (gross.val * settings.toleranceBps ≤ deltaCents.val * 10000)

def ShortLine.merged (o : Opening) (line : ShortLine) (matchedOn : List Text) (detail : Option Text) : MergedLine where
  documentId := o.document.documentId
  docType := o.docType
  invoiceNumber := line.invoiceNumber
  deductionAmountCents := line.amountCents
  reasonCodeAsPrinted := line.reasonCode
  matchedOn := matchedOn
  detail := detail
  confirmation := o.confirmation

/-- `mergeIntoCase`: the link as evidence, then the event on the case. -/
def mergeIntoCase (o : Opening) (deductionId : CaseId) (line : MergedLine) : Program Unit := do
  write (Store.linkDocument ⟨deductionId, o.document.documentId, .evidence⟩)
  write (Store.appendEvent ⟨o.document.orgId, deductionId, .merged_duplicate_line line⟩)

/-- `applyTransition(from, 'classified', 'document.classified', { doc_type_known: true })`: one edge of the
table has that trigger. -/
def classifiedFrom (source : CaseState) : Except Failure Unit :=
  if source = .discovered then .ok () else .error (.illegalTransition source .classified)

/-- `probableDuplicates`. -/
def probableDuplicates : IdentityResolution → Option (List CaseId)
  | .probable id _ => some [id]
  | .ambiguous ids _ => some ids
  | _ => none

/-- `resolution.basis`. -/
def basisOf : IdentityResolution → Option (List Text)
  | .probable _ basis => some basis
  | .ambiguous _ basis => some basis
  | _ => none

/-- `withLegacy`. -/
def withLegacy (probable : Option (List CaseId)) (legacy : List CaseId) : Option (List CaseId) :=
  if legacy = [] then probable
  else some ((firstSeen (probable.getD [] ++ legacy)).insertionSort (· ≤ ·))

/-- `probableBasis` of the line loop. -/
def withLegacyBasis (basis : Option (List Text)) (legacy : List CaseId) : Option (List Text) :=
  if legacy = [] then basis else some (basis.getD [] ++ ["legacy_claim_id".toList])

/-- The pair `openCaseForLine` is given, when both halves are there. -/
def duplicatePair (probableDuplicateOf : Option (List CaseId)) (probableBasis : Option (List Text)) :
    Option (List CaseId × List Text) :=
  probableDuplicateOf.bind fun ids => probableBasis.map fun basis => (ids, basis)

section
variable (tenant : Tenant)

def newCaseOf (o : Opening) (claimId : Text) (line : ShortLine) : NewCase where
  orgId := o.document.orgId
  claimId := some claimId
  retailerName := o.payer.value
  deductionAmountCents := some line.amountCents
  deductionDate := o.paymentDate.value
  disputeDeadline := none
  discoveredVia := .remittance_line
  reasonCodeAsPrinted := line.reasonCode

/-- `openCaseForLine`: opens one case and walks it discovered → classified. -/
def openCaseForLine (o : Opening) (claimId : Text) (line : ShortLine) (duplicate : Option (List CaseId × List Text)) :
    Program CaseRecord := do
  let opened ← transact (Store.openCase tenant (newCaseOf o claimId line))
  write (Store.linkDocument ⟨opened.deductionId, o.document.documentId, .notice⟩)
  let names ← transact fun s =>
    let (names, s) := Store.recordIdentifiers tenant o.document.orgId opened.deductionId o.document.documentId
      [⟨.claim_id, claimId⟩, ⟨.invoice_number, line.invoiceNumber⟩] s
    (.ok names, s)
  write (Store.appendEvent ⟨o.document.orgId, opened.deductionId, .discovered
    { documentId := o.document.documentId
      claimId := claimId
      invoiceNumber := line.invoiceNumber
      identifiersRecorded := names.1
      identifiersUnrecorded := names.2
      probableDuplicateOf := duplicate.map (·.1)
      probableDuplicateBasis := duplicate.map (·.2)
      paymentReference := o.paymentReference
      retailerName := o.payer.value
      debtorId := opened.debtorId
      deductionDate := o.paymentDate.value
      deductionAmountCents := line.amountCents
      reasonCodeAsPrinted := line.reasonCode
      amountIsPrinted := line.basis = .printed
      grossAmountCents := line.grossCents
      retailerNameUnread := o.payer.problem
      deductionDateUnread := o.paymentDate.problem
      confirmation := o.confirmation }⟩)
  ((duplicate.map (·.1)).getD []).forM fun other =>
    write (Store.appendEvent ⟨o.document.orgId, opened.deductionId,
      .possible_duplicate other ((duplicate.map (·.2)).getD [])⟩)
  lift (classifiedFrom opened.state)
  let classified ← transact (Store.transitionCase opened.deductionId .classified)
  write (Store.appendEvent ⟨o.document.orgId, opened.deductionId, .classified .remittance_advice "remittance"⟩)
  pure classified

/-- What is returned of a line that is a case already. -/
def ShortLine.mergedResult (line : ShortLine) (deductionId : CaseId) : RemittanceLineResult where
  index := line.index
  outcome := .merged
  invoiceNumber := some line.invoiceNumber
  deductionId := some deductionId

/-- Opens the line's case; a claim that is open already is merged into, and nothing else is caught. -/
def openLine (o : Opening) (claimId : Text) (line : ShortLine) (probableDuplicateOf : Option (List CaseId))
    (probableBasis : Option (List Text)) : Program RemittanceLineResult :=
  handle
    (do
      let opened ← openCaseForLine tenant o claimId line (duplicatePair probableDuplicateOf probableBasis)
      pure
        { index := line.index
          outcome := if probableDuplicateOf = none then .opened else .probable_duplicate
          invoiceNumber := some line.invoiceNumber
          deductionId := some opened.deductionId
          probableDuplicateOf := probableDuplicateOf })
    fun
      | .duplicateCase existing => do
        mergeIntoCase o existing (line.merged o ["claim_id"]
          (some ("the claim this line builds is already open against this debtor; ".toList ++
            "the unique constraint caught what the identifier matcher could not".toList)))
        pure (line.mergedResult existing)
      | failure => throw failure

end

section
variable (T : CaseTables) (tenant : Tenant)

/-- The work done under the claim on the line's invoice. -/
def settleLine (o : Opening) (openedHere : List CaseId) (line : ShortLine) : Program RemittanceLineResult := do
  let key := (o.keys[line.index]?).join
  let claimId := o.claimIdOf line
  let legacyClaimId := key.bind (·.legacyClaimId)
  let arrivalIdentifiers : List ArrivedIdentifier := [⟨.claim_id, claimId⟩]
  let found : List KnownIdentifier × List KnownDeduction ← ask (Store.identityCandidates T o.document.orgId
    (arrivalIdentifiers ++ (legacyClaimId.map fun id => ⟨.claim_id, id⟩).toList) line.invoiceNumber)
  let ofClaim (claim : Text) (known : KnownIdentifier) : Bool :=
    known.deductionId ∉ openedHere && known.kind = .claim_id &&
      identifierMatchKey T known.identifier = identifierMatchKey T claim
  let resolution ← lift <| (resolveIdentity T
    { identifiers := arrivalIdentifiers
      amountCents := some line.amountCents
      invoiceNumber := some line.invoiceNumber
      deductionDate := o.paymentDate.value
      debtorId := none }
    (found.1.filter (ofClaim claimId)) (found.2.filter fun known => known.deductionId ∉ openedHere)
    (some (o.settings.dedupDays : Int))).mapError .identity
  match resolution with
  | .exact deductionId matchedOn => do
    mergeIntoCase o deductionId (line.merged o [matchedOn.kind.text] none)
    pure (line.mergedResult deductionId)
  | _ =>
    let legacyIds := match legacyClaimId with
      | none => []
      | some legacy => firstSeen ((found.1.filter (ofClaim legacy)).map KnownIdentifier.deductionId)
    let owner (legacyId : CaseId) : Option Nat :=
      ((found.2.find? fun known => known.deductionId = legacyId).map (·.amountCents)).bind fun amount =>
        legacyOwner ((key.map (·.group)).getD []) o.shortPays amount.val
    match legacyIds.find? fun id => owner id = some line.index with
    | some legacyId => do
      mergeIntoCase o legacyId (line.merged o ["claim_id"]
        (some ("this case was opened under the claim id the whole invoice shared before its ".toList ++
          "lines were told apart (ADR 0048), and its amount is this line's".toList)))
      pure (line.mergedResult legacyId)
    | none =>
      let legacyFlagged := legacyIds.filter fun id => owner id = none
      openLine tenant o claimId line (withLegacy (probableDuplicates resolution) legacyFlagged)
        (withLegacyBasis (basisOf resolution) legacyFlagged)

/-! ## The lines -/

/-- What the line loop has made so far. -/
structure LineLoop where
  lines : List RemittanceLineResult := []
  opened : List CaseRecord := []
  mergedInto : List CaseId := []
  openedHere : List CaseId := []
  attributionUnavailable : Option Text := none

/-- `note`. -/
def LineLoop.note (acc : LineLoop) (line : RemittanceLine) (result : RemittanceLineResult) : LineLoop :=
  { acc with lines := acc.lines ++ [{ result with
      invoiceNumber := printedIdentifier line.invoice_number
      reasonCode := printedIdentifier line.reason_code }] }

/-- The row of a line under the tenant's floor. -/
def declinedLine (o : Opening) (line : ShortLine) (source : UploadSource) : DeclinedLine where
  orgId := o.document.orgId
  documentId := o.document.documentId
  discoveredFrom := source
  estimatedRecoverableCents := line.amountCents
  invoiceNumber := line.invoiceNumber
  paymentReference := o.paymentReference
  reasonCode := line.reasonCode
  decidedByVersion := decimal o.settings.toleranceCents ++ "c/".toList ++ decimal o.settings.toleranceBps ++ "bps".toList
  detail := "short-pay of ".toList ++ decimalInt line.amountCents.val ++
    " cents is under this tenant's remittance floor (".toList ++ decimal o.settings.toleranceCents ++
    " cents / ".toList ++ decimal o.settings.toleranceBps ++ " bps)".toList

/-- A line under the floor: declined, unless the document's arrival is unknown, which the first refusal
settles for the lines after it. -/
def declineLine (o : Opening) (acc : LineLoop) (row : RemittanceLine) (line : ShortLine) : Program LineLoop :=
  let unattributed (message : Text) : LineLoop := { acc with attributionUnavailable := some message }.note row
    { index := line.index, outcome := .below_tolerance_unattributed, amountCents := some line.amountCents,
      detail := some message }
  match acc.attributionUnavailable with
  | some message => pure (unattributed message)
  | none =>
    handle
      (do
        transact (Store.recordDeclinedLine tenant (declinedLine o line) o.document.documentId)
        pure (acc.note row { index := line.index, outcome := .below_tolerance, amountCents := some line.amountCents }))
      fun
        | .lineProvenanceUnknown documentId => pure (unattributed (lineProvenanceUnknownMessage documentId))
        | failure => throw failure

/-- A line over the floor, and what the loop keeps of it. -/
def overFloor (o : Opening) (acc : LineLoop) (line : ShortLine) : Program LineLoop := do
  let outcome ← withInvoiceClaim (settleLine T tenant o acc.openedHere line)
  let acc := { acc with lines := acc.lines ++ [{ outcome with reasonCode := line.reasonCode }] }
  match outcome.deductionId with
  | none => pure acc
  | some id =>
    if outcome.outcome = .opened ∨ outcome.outcome = .probable_duplicate then do
      let record ← ask fun s => s.getCase id
      pure { acc with openedHere := acc.openedHere ++ [id], opened := acc.opened ++ record.toList }
    else pure { acc with mergedInto := acc.mergedInto ++ [id] }

/-- One turn of the line loop. -/
def processLine (o : Opening) (acc : LineLoop) (entry : RemittanceLine × Nat) : Program LineLoop :=
  let (row, index) := entry
  match o.shortPays[index]? with
  | none => throw (.missingShortPay index)
  | some (.problem problem) => pure (acc.note row { index, outcome := .unreadable, detail := some problem })
  | some (.cents amountCents basis) =>
    if amountCents.val ≤ 0 then
      pure (acc.note row { index, outcome := .not_short_paid, amountCents := some amountCents })
    else
      match printedIdentifier row.invoice_number with
      | none =>
        pure (acc.note row
          { index
            outcome := .unreadable
            amountCents := some amountCents
            detail := some ("the line prints no invoice number, so this short-pay cannot be told apart ".toList ++
              "from another on the same advice".toList) })
      | some invoiceNumber =>
        let line : ShortLine :=
          { index, invoiceNumber, amountCents, basis
            reasonCode := printedIdentifier row.reason_code
            grossCents := printedMoneyCents T row.gross_amount }
        if clearsRemittanceTolerance amountCents line.grossCents o.settings then overFloor T tenant o acc line
        else declineLine tenant o acc row line

structure RemittanceRead where
  opened : List CaseRecord
  mergedInto : List CaseId
  lines : List RemittanceLineResult

/-- The summary every case the read touched is given. -/
def linesProcessed (document : CaseOpeningDocument) (docType : DocType) (read : RemittanceRead) : LinesProcessed where
  documentId := document.documentId
  docType := docType
  linesRead := read.lines.length
  counts := (firstSeen (read.lines.map (·.outcome))).map fun outcome =>
    (outcome, (read.lines.filter (·.outcome = outcome)).length)
  opened := read.opened.map (·.deductionId)
  mergedInto := firstSeen read.mergedInto
  lines := read.lines

/-- `reportLinesProcessed`. -/
def reportLinesProcessed (document : CaseOpeningDocument) (docType : DocType) (read : RemittanceRead) : Program Unit :=
  (firstSeen (read.opened.map (·.deductionId) ++ read.mergedInto)).forM fun id =>
    write (Store.appendEvent ⟨document.orgId, id, .lines_processed (linesProcessed document docType read)⟩)

/-- What the line loop closes over. -/
def openingOf (tryParsePrintedDate : Text → Except Text Text) (document : CaseOpeningDocument)
    (reading : CaseOpeningReading) (confirmation : Option HoldConfirmation) (shortPays : List ShortPay) : Opening where
  document := document
  docType := reading.docType
  payer := printedRetailerName reading.advice.payer_name
  paymentReference := printedIdentifier reading.advice.payment_reference
  paymentDate := printedDate tryParsePrintedDate reading.advice.payment_date
  settings := tenant.settings document.orgId
  keys := lineClaimIds T reading.advice.lines (printedIdentifier reading.advice.payment_reference)
  shortPays := shortPays
  confirmation := confirmation

/-- Every line's short-pay over a whole advice. -/
def adviceShortPays (advice : RemittanceAdvice) : Except MoneyError (List ShortPay) :=
  lineShortPays T advice.lines (lineClaimIds T advice.lines (printedIdentifier advice.payment_reference))

/-- The first `count` turns of the line loop, and what comes before them. -/
def lineLoop (tryParsePrintedDate : Text → Except Text Text) (document : CaseOpeningDocument)
    (reading : CaseOpeningReading) (confirmation : Option HoldConfirmation) (count : Nat) : Program LineLoop := do
  -- `remittanceSettings`
  ask fun _ => ()
  let shortPays ← lift ((adviceShortPays T reading.advice).mapError .money)
  let o := openingOf T tenant tryParsePrintedDate document reading confirmation shortPays
  (reading.advice.lines.zipIdx.take count).foldlM (processLine T tenant o) {}

/-- `openCasesFromRemittance`. -/
def openCasesFromRemittance (tryParsePrintedDate : Text → Except Text Text) (document : CaseOpeningDocument)
    (reading : CaseOpeningReading) (confirmation : Option HoldConfirmation) : Program RemittanceRead := do
  let done ← lineLoop T tenant tryParsePrintedDate document reading confirmation reading.advice.lines.length
  let read : RemittanceRead := ⟨done.opened, done.mergedInto, done.lines⟩
  reportLinesProcessed document reading.docType read
  pure read

/-- `remittanceLineOfCase`: `none` for a case that no remittance line opened. -/
def remittanceLineOfCase (s : Store) (deductionId : CaseId) (remittances : List RemittanceAdvice) :
    Except MoneyError (Option (Option (RemittanceAdvice × Nat))) :=
  match remittances, s.getCase deductionId with
  | [], _ => .ok none
  | _, none => .ok none
  | advices, some record =>
    if record.discoveredVia = .remittance_line then
      (lineOfAdvices T advices ⟨record.claimId, record.deductionAmountCents.map (·.val)⟩).map some
    else .ok none

end

end Recouple.Pipeline
