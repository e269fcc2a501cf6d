import Recouple.Database.Workflow

/-!
# The two stores' workflow calls

`Postgres`: `workflow.ts` 331-1265 and 2402-2414, `store.ts` 5175-5440, with the triggers and constraints of 0005,
0016 and 0031 that judge their inserts. Every call is one transaction under the case's row lock.

`Memory`: `memory-store.ts` 1004-1577. It has no transaction to roll back, no session beside the person named, and
one kind of approval.
-/

namespace Recouple.Database.Workflow
open Js Guarded Recouple.Packet
open Pipeline (CaseState UploadSource)

/-- A case's enclosures in the order they are sent: the notices first. -/
def Papers.enclosures (papers : Papers) (deductionId : Nat) (enclose : Document → Bool) : List (Nat × PacketDocument) :=
  let links := papers.deduction_documents.filter fun l =>
    l.deduction_id = deductionId ∧ (l.role = .notice ∨ l.role = .evidence)
  (links.filter (·.role = .notice) ++ links.filter (·.role ≠ .notice)).filterMap fun l =>
    ((Rows.lookup Document.id papers.documents l.document_id).filter enclose).map fun d =>
      (d.id, ⟨l.role, d.filename, some d.sha256⟩)

def Papers.invoiceNumbers (papers : Papers) (deductionId : Nat) : List Text :=
  (papers.invoice_numbers.filter (·.1 = deductionId)).map (·.2)

/-- `buildPacketNarrative` over a case, a `PacketError` turned into the workflow's own refusal. -/
def buildNarrativeOrRefuse (s : Db) (existing : Case) (decision : Decision) (supplier : Text)
    (amount : Int) (documents : List PacketDocument) (findings : List Finding) (letterTerms : LetterTerms) : Call Text :=
  lift <| (buildPacketNarrative
    { letterTerms with
      supplier
      claimId := existing.claim_id
      payer := s.papers.retailers.lookup existing.id
      invoiceNumbers := s.papers.invoiceNumbers existing.id
      deductionAmountCents := amount
      deductionDate := existing.deduction_date
      disputeDeadline := existing.dispute_deadline
      reason := decision.reason
      rationale := decision.rationale
      documents
      findings }).mapError (.packetNotBuildable existing.id decision.id)

/-- `exactCents`, and the amount of a case that must have one. -/
def exactCents (deductionId : Nat) (amount : Option Int) : Call Int := do
  let amount ← found amount (.amountNotExact deductionId)
  require (-maxSafe ≤ amount ∧ amount ≤ maxSafe) (.amountNotExact deductionId)
  pure amount

def assembledFrom (p : Packet) : Answer := .assembled p.id p.content_hash p.narrative p.file_document_ids

/-- The case goes to `awaiting_approval`, or waits there already. -/
def requireAssembling (existing : Case) : Call Unit :=
  if existing.state = .analyst_review then
    applyTransition .analyst_review .awaiting_approval .packet_assembled
  else
    require (existing.state = .awaiting_approval)
      (.wrongCaseState existing.id .assemble existing.state [.analyst_review, .awaiting_approval])

/-! ## PostgreSQL -/

namespace Postgres

def requireCaller (m : Moment) (actorId : Nat) (action : Act) : Call Unit :=
  require (actorId = m.caller) (.actorIsNotTheSession actorId m.caller action)

/-- `app.member_may_write` -/
def memberMayWrite (s : Db) (user : Nat) : Bool := (s.roleOf user).any (· ∈ writerRoles)

def lockCase (m : Moment) (deductionId : Nat) (action : Act) (roles : List MembershipRole) : Call Case := do
  let s ← get
  let row ← found (s.find deductionId) (.caseNotVisible deductionId)
  require (memberMayWrite s m.caller = true) (.wrongRole m.caller action roles)
  pure row

/-- `insert into decisions`, with `app.human_decision_names_its_author`. -/
def insertDecision (m : Moment) (new : Decision) : Call Unit := do
  let s ← get
  require (new.prepared_by = m.caller) .humanDecisionAuthor
  require (s.decision new.id = none) .constraint
  modify (·.addDecision new)

def recordHumanDecision (m : Moment) (deductionId preparedBy : Nat) (reason rationale : Text) : Call Answer := do
  requireCaller m preparedBy .decide
  let existing ← lockCase m deductionId .decide writerRoles
  let s ← get
  absent (s.decline deductionId) fun standing => .caseAlreadyDeclined deductionId standing.id
  require (existing.state = .classified) (.wrongCaseState deductionId .decide existing.state [.classified])
  let rationale ← checkRationale deductionId reason rationale
  applyTransition .classified .analyst_review .decision_recorded
  insertDecision m ⟨m.newId, deductionId, reason, rationale, preparedBy⟩
  pure (.decided m.newId)

/-- `packetDocuments`: what a person typed in is never enclosed. -/
def packetDocuments (s : Db) (deductionId : Nat) : List (Nat × PacketDocument) :=
  s.papers.enclosures deductionId fun d => d.observed_from ≠ some .manual_entry

/-- The narrative of a packet and the documents it encloses. -/
def letterFor (existing : Case) (decision : Decision) (findings : List Finding) (letterTerms : LetterTerms) :
    Call (Text × List Nat) := do
  let s ← get
  let enclosed := packetDocuments s existing.id
  require (enclosed ≠ []) (.nothingToSend existing.id)
  let supplier ← found s.papers.organization .noOrganization
  let amount ← exactCents existing.id existing.deduction_amount_cents
  let narrative ← buildNarrativeOrRefuse s existing decision supplier amount (enclosed.map (·.2)) findings letterTerms
  pure (narrative, enclosed.map (·.1))

/-- `insert into packets`, with `app.packet_matches_its_decision`. -/
def insertPacket (new : Packet) (source : CaseState) : Call Unit := do
  let s ← get
  require ((s.decision new.decision_id).map (·.deduction_id) = some new.deduction_id) .constraint
  require (s.packetWith new.decision_id new.content_hash = none ∧ s.packet new.id = none) .constraint
  modify (·.addPacket new source)

def assemblePacket (tools : Tools) (m : Moment) (deductionId decisionId assembledBy : Nat) (findings : List Finding)
    (letterTerms : LetterTerms) : Call Answer := do
  requireCaller m assembledBy .assemble
  let existing ← lockCase m deductionId .assemble writerRoles
  let s ← get
  let decision ← found ((s.decision decisionId).filter (·.deduction_id = deductionId))
    (.decisionNotForCase decisionId deductionId)
  let (narrative, ids) ← letterFor existing decision findings letterTerms
  let contentHash := packetContentHash tools decisionId narrative ids
  match s.packetWith decisionId contentHash with
  | some already => pure (assembledFrom already)
  | none =>
    absent (if existing.state = .awaiting_approval then (s.submitApproval decisionId).bind (·.packet_hash) else none)
      fun approved => .packetAfterApproval decisionId approved
    requireAssembling existing
    let packet := ⟨m.newId, deductionId, decisionId, contentHash, narrative, ids, assembledBy, m.now⟩
    insertPacket packet existing.state
    pure (assembledFrom packet)

/-- The packet of a decision a caller names. -/
def packetFor (packetId decisionId : Nat) (action : Act) : Call Packet := do
  let s ← get
  found ((s.packet packetId).filter (·.decision_id = decisionId)) (.packetNotForDecision packetId decisionId action)

/-- `latestPacket`: the newest by `(created_at, id)`. -/
def latestPacket (s : Db) (decisionId : Nat) : Option Packet :=
  (s.packets.filter (·.decision_id = decisionId)).argmax fun p => toLex (p.created_at, p.id)

/-- `insert into approvals`: `app.approval_names_its_approver`, `app.enforce_separation_of_duties`, one approval for a
decision and action, and a hash that is a packet's of the decision. -/
def insertApproval (m : Moment) (new : Approval) : Call Unit := do
  let s ← get
  require (new.approver_id = m.caller) .approvalAuthor
  let decision ← found (s.decision new.decision_id) (.decisionNotFound new.decision_id .approve)
  require (decision.prepared_by ≠ new.approver_id) (.preparerCannotApprove new.decision_id new.approver_id)
  require ((s.roleOf new.approver_id).any (· ∈ approverRoles) = true) (.wrongRole new.approver_id .approve approverRoles)
  absent (s.approvals.find? fun a => a.decision_id = new.decision_id ∧ a.action_type = new.action_type)
    fun standing => .duplicateApproval new.decision_id standing.id
  require (∀ hash ∈ new.packet_hash, s.packetWith new.decision_id hash ≠ none) (.approvedPacketMissing new.decision_id)
  require (∀ a ∈ s.approvals, a.id ≠ new.id) .constraint
  modify (·.addApproval new)

def approve (m : Moment) (decisionId packetId approverId : Nat) (note : Option Text) (alsoWriteback : Bool) :
    Call Answer := do
  requireCaller m approverId .approve
  let packet ← packetFor packetId decisionId .approve
  let existing ← lockCase m packet.deduction_id .approve approverRoles
  require (existing.state = .awaiting_approval)
    (.wrongCaseState packet.deduction_id .approve existing.state [.awaiting_approval])
  let s ← get
  absent ((latestPacket s decisionId).filter (·.id ≠ packet.id))
    fun latest => .packetSuperseded decisionId packet.content_hash latest.content_hash
  let approval := ⟨m.newId, decisionId, approverId, .submit, note, some packet.content_hash⟩
  insertApproval m approval
  if alsoWriteback then
    let writeback := ⟨m.secondId, decisionId, approverId, .writeback, note, none⟩
    insertApproval m writeback
    modify (·.withGrant packet.deduction_id writeback)
  modify (·.withGrant packet.deduction_id approval)
  pure (.approved m.newId packet.deduction_id)

/-- `insert into submissions`, with `app.require_approval('submit')`. -/
def insertSubmission (new : Submission) (recordedBy : Nat) : Call Unit := do
  let s ← get
  require (s.submitApproval new.decision_id ≠ none ∧
      (s.decision new.decision_id).map (·.deduction_id) = some new.deduction_id)
    (.approvalGateRefused new.decision_id)
  absent (s.submission new.decision_id new.channel)
    fun existing => .duplicateSubmission new.decision_id new.channel existing.id
  require (∀ f ∈ s.submissions, f.id ≠ new.id) .constraint
  modify (·.addSubmission new recordedBy)

def recordSubmission (m : Moment) (decisionId packetId approvalId : Nat) (channel : Channel) (confirmationNumber : Text)
    (submittedAt actorId : Nat) : Call Answer := do
  requireCaller m actorId .submit
  let packet ← packetFor packetId decisionId .submit
  let s ← get
  let approval ← found ((s.approvals.find? fun a => a.id = approvalId ∧ a.action_type = .submit).filter
    (·.decision_id = decisionId)) (.noApprovalForSubmission decisionId)
  let approvedHash ← found approval.packet_hash (.approvalNamesNoPacket approvalId)
  let existing ← lockCase m packet.deduction_id .submit writerRoles
  absent (s.submission decisionId channel) fun duplicate => .duplicateSubmission decisionId channel duplicate.id
  require (existing.state = .awaiting_approval)
    (.wrongCaseState packet.deduction_id .submit existing.state [.awaiting_approval])
  require (approvedHash = packet.content_hash) (.packetHashMismatch decisionId approvedHash packet.content_hash)
  let confirmationNumber := trim confirmationNumber
  require (confirmationNumber ≠ []) (.confirmationNumberRequired decisionId)
  applyTransition .awaiting_approval .submitted .submission_recorded
  insertSubmission
    ⟨m.newId, packet.deduction_id, decisionId, channel, packet.content_hash, confirmationNumber, submittedAt⟩ actorId
  pure (.submitted m.newId packet.deduction_id)

def recordOutcome (m : Moment) (deductionId : Nat) (outcome : CaseOutcome) (recoveredCents : Rat) (recordedBy : Nat)
    (note : Option Text) : Call Answer := do
  requireCaller m recordedBy .recordOutcome
  let existing ← lockCase m deductionId .recordOutcome writerRoles
  require (existing.state = .submitted) (.wrongCaseState deductionId .recordOutcome existing.state [.submitted])
  let amount ← found existing.deduction_amount_cents (.amountNotExact deductionId)
  checkRecoveredCents deductionId outcome recoveredCents amount
  applyTransition .submitted outcome.state .outcome_recorded
  modify (·.addOutcome deductionId outcome recoveredCents.num recordedBy note)
  pure .recorded

/-- The earliest notice of a case. -/
def earliestNotice (s : Db) (deductionId : Nat) : Option Document :=
  ((s.papers.deduction_documents.filter fun l => l.deduction_id = deductionId ∧ l.role = .notice).filterMap
    fun l => Rows.lookup Document.id s.papers.documents l.document_id).argmin fun d => toLex (d.created_at, d.id)

/-- `declineCase`, from the amount on: the channel is the earliest notice's, observed before asserted. -/
def declineCase (m : Moment) (deductionId : Nat) (reason decidedBy : Text) (missingEvidence : List Text)
    (detail : Option Text) : Call Answer := do
  let existing ← lockCase m deductionId .decide writerRoles
  let s ← get
  require (existing.state ≠ .merged) (.caseMergedAway deductionId)
  absent (s.decisionOn deductionId) fun d => .caseNotDeclinable deductionId existing.state (some d.id)
  require (existing.state ∈ declinableStates) (.caseNotDeclinable deductionId existing.state none)
  let amount ← exactCents deductionId existing.deduction_amount_cents
  let notice := earliestNotice s deductionId
  let channel ← found (notice.bind fun d => (d.observed_from.map fun u => (u, ProvenanceKind.observed)).or
    (d.asserted_from.map fun u => (u, ProvenanceKind.asserted)))
    (.provenanceUnknown deductionId (notice.map (·.id)))
  absent (missingEvidence.find? (· ∉ missingEvidenceTypes)) .notAnEvidenceType
  absent (s.decline deductionId) fun standing => .alreadyDeclined deductionId standing.id
  require (∀ k ∈ s.declined_candidates, k.id ≠ m.newId) .constraint
  modify (·.addDecline ⟨m.newId, deductionId, some channel, reason, amount, missingEvidence, detail, decidedBy⟩)
  pure (.declined m.newId)

def setDisputeDeadline (m : Moment) (deductionId : Nat) (deadline basis : Text) (setBy : Nat) :
    Call Answer := do
  requireCaller m setBy .setDeadline
  let existing ← lockCase m deductionId .setDeadline writerRoles
  require (isClosed existing.state = false) (.wrongCaseState deductionId .setDeadline existing.state openStates)
  absent existing.dispute_deadline fun standing => .deadlineAlreadySet deductionId standing
  let basis ← checkEnteredDeadline deductionId deadline basis m.today
  modify (·.addDeadline deductionId deadline basis setBy)
  pure .recorded

def call (tools : Tools) (m : Moment) : Request → Call Answer
  | .recordHumanDecision deductionId preparedBy reason rationale =>
    recordHumanDecision m deductionId preparedBy reason rationale
  | .assemblePacket deductionId decisionId assembledBy findings letterTerms =>
    assemblePacket tools m deductionId decisionId assembledBy findings letterTerms
  | .approve decisionId packetId approverId note alsoWriteback => approve m decisionId packetId approverId note alsoWriteback
  | .recordSubmission decisionId packetId approvalId channel confirmationNumber submittedAt actorId =>
    recordSubmission m decisionId packetId approvalId channel confirmationNumber submittedAt actorId
  | .recordOutcome deductionId outcome recoveredCents recordedBy note =>
    recordOutcome m deductionId outcome recoveredCents recordedBy note
  | .declineCase deductionId reason decidedBy missingEvidence detail =>
    declineCase m deductionId reason decidedBy missingEvidence detail
  | .setDisputeDeadline deductionId deadline basis setBy => setDisputeDeadline m deductionId deadline basis setBy

end Postgres

/-! ## In memory -/

namespace Memory

def caseOrThrow (deductionId : Nat) : Call Case := do
  let s ← get
  found (s.find deductionId) (.caseNotVisible deductionId)

def requireWriter (userId : Nat) (action : Act) : Call Unit := do
  let s ← get
  require ((s.roleOf userId).any (· ∈ writerRoles) = true) (.wrongRole userId action writerRoles)

/-- `randomUUID`: an id no row of the table has. -/
def freshId (ids : List Nat) : Nat := ids.foldr max 0 + 1

def recordHumanDecision (deductionId preparedBy : Nat) (reason rationale : Text) : Call Answer := do
  let existing ← caseOrThrow deductionId
  requireWriter preparedBy .decide
  let s ← get
  absent (s.decline deductionId) fun declined => .caseAlreadyDeclined deductionId declined.id
  require (existing.state = .classified) (.wrongCaseState deductionId .decide existing.state [.classified])
  let rationale ← checkRationale deductionId reason rationale
  applyTransition .classified .analyst_review .decision_recorded
  let record := ⟨freshId (s.decisions.map (·.id)), deductionId, reason, rationale, preparedBy⟩
  modify (·.addDecision record)
  pure (.decided record.id)

def packetDocuments (s : Db) (deductionId : Nat) : List (Nat × PacketDocument) :=
  s.papers.enclosures deductionId fun _ => true

/-- The narrative of a packet and the documents it encloses. -/
def letterFor (existing : Case) (decision : Decision) (findings : List Finding) : Call (Text × List Nat) := do
  let s ← get
  let enclosed := packetDocuments s existing.id
  require (enclosed ≠ []) (.nothingToSend existing.id)
  let amount ← found existing.deduction_amount_cents (.amountNotExact existing.id)
  let supplier ← found s.papers.organization .noOrganization
  let narrative ← buildNarrativeOrRefuse s existing decision supplier amount (enclosed.map (·.2)) findings
    ⟨none, none, []⟩
  pure (narrative, enclosed.map (·.1))

def assemblePacket (tools : Tools) (m : Moment) (deductionId decisionId assembledBy : Nat) (findings : List Finding) :
    Call Answer := do
  let existing ← caseOrThrow deductionId
  requireWriter assembledBy .assemble
  let s ← get
  let decision ← found ((s.decision decisionId).filter (·.deduction_id = deductionId))
    (.decisionNotForCase decisionId deductionId)
  let (narrative, ids) ← letterFor existing decision findings
  let contentHash := packetContentHash tools decisionId narrative ids
  match s.packetWith decisionId contentHash with
  | some already => pure (assembledFrom already)
  | none =>
    absent (if existing.state = .awaiting_approval then (s.submitApproval decisionId).bind (·.packet_hash) else none)
      fun approved => .packetAfterApproval decisionId approved
    requireAssembling existing
    let packet := ⟨freshId (s.packets.map (·.id)), deductionId, decisionId, contentHash, narrative, ids, assembledBy, m.now⟩
    modify (·.addPacket packet existing.state)
    pure (assembledFrom packet)

def packetFor (packetId decisionId : Nat) (action : Act) : Call Packet := do
  let s ← get
  found ((s.packet packetId).filter (·.decision_id = decisionId)) (.packetNotForDecision packetId decisionId action)

/-- The last one pushed. -/
def latestPacket (s : Db) (decisionId : Nat) : Option Packet :=
  (s.packets.filter (·.decision_id = decisionId)).getLast?

def approve (decisionId packetId approverId : Nat) (note : Option Text) : Call Answer := do
  let packet ← packetFor packetId decisionId .approve
  let existing ← caseOrThrow packet.deduction_id
  let s ← get
  let decision ← found (s.decision decisionId) (.decisionNotFound decisionId .approve)
  require (decision.prepared_by ≠ approverId) (.preparerCannotApprove decisionId approverId)
  require ((s.roleOf approverId).any (· ∈ approverRoles) = true) (.wrongRole approverId .approve approverRoles)
  require (existing.state = .awaiting_approval)
    (.wrongCaseState packet.deduction_id .approve existing.state [.awaiting_approval])
  absent ((latestPacket s decisionId).filter (·.id ≠ packet.id))
    fun latest => .packetSuperseded decisionId packet.content_hash latest.content_hash
  absent (s.approvals.find? fun a => a.decision_id = decisionId) fun standing => .duplicateApproval decisionId standing.id
  let record :=
    ⟨freshId (s.approvals.map (·.id)), decisionId, approverId, .submit, note, some packet.content_hash⟩
  modify fun s => (s.addApproval record).withGrant packet.deduction_id record
  pure (.approved record.id packet.deduction_id)

def recordSubmission (decisionId packetId approvalId : Nat) (channel : Channel) (confirmationNumber : Text)
    (submittedAt actorId : Nat) : Call Answer := do
  let packet ← packetFor packetId decisionId .submit
  let s ← get
  let approval ← found ((s.approvals.find? fun a => a.id = approvalId).filter (·.decision_id = decisionId))
    (.noApprovalForSubmission decisionId)
  let existing ← caseOrThrow packet.deduction_id
  requireWriter actorId .submit
  absent (s.submission decisionId channel) fun duplicate => .duplicateSubmission decisionId channel duplicate.id
  require (existing.state = .awaiting_approval)
    (.wrongCaseState packet.deduction_id .submit existing.state [.awaiting_approval])
  require (approval.packet_hash = some packet.content_hash)
    (.packetHashMismatch decisionId (approval.packet_hash.getD []) packet.content_hash)
  let confirmationNumber := trim confirmationNumber
  require (confirmationNumber ≠ []) (.confirmationNumberRequired decisionId)
  applyTransition .awaiting_approval .submitted .submission_recorded
  let record := ⟨freshId (s.submissions.map (·.id)), packet.deduction_id, decisionId, channel, packet.content_hash,
    confirmationNumber, submittedAt⟩
  modify (·.addSubmission record actorId)
  pure (.submitted record.id packet.deduction_id)

def recordOutcome (deductionId : Nat) (outcome : CaseOutcome) (recoveredCents : Rat) (recordedBy : Nat)
    (note : Option Text) : Call Answer := do
  let existing ← caseOrThrow deductionId
  requireWriter recordedBy .recordOutcome
  require (existing.state = .submitted) (.wrongCaseState deductionId .recordOutcome existing.state [.submitted])
  let amount ← found existing.deduction_amount_cents (.amountNotExact deductionId)
  checkRecoveredCents deductionId outcome recoveredCents amount
  applyTransition .submitted outcome.state .outcome_recorded
  modify (·.addOutcome deductionId outcome recoveredCents.num recordedBy note)
  pure .recorded

def declineCase (deductionId : Nat) (reason decidedBy : Text) (missingEvidence : List Text) (detail : Option Text) :
    Call Answer := do
  let existing ← caseOrThrow deductionId
  require (existing.state ≠ .merged) (.caseMergedAway deductionId)
  let s ← get
  absent (s.decisionOn deductionId) fun d => .caseNotDeclinable deductionId existing.state (some d.id)
  require (existing.state ∈ declinableStates) (.caseNotDeclinable deductionId existing.state none)
  let amount ← exactCents deductionId existing.deduction_amount_cents
  absent (s.decline deductionId) fun standing => .alreadyDeclined deductionId standing.id
  let row := ⟨freshId (s.declined_candidates.map (·.id)), deductionId, none, reason, amount, missingEvidence, detail,
    decidedBy⟩
  modify (·.addDecline row)
  pure (.declined row.id)

def setDisputeDeadline (m : Moment) (deductionId : Nat) (deadline basis : Text) (setBy : Nat) :
    Call Answer := do
  let existing ← caseOrThrow deductionId
  requireWriter setBy .setDeadline
  require (isClosed existing.state = false) (.wrongCaseState deductionId .setDeadline existing.state openStates)
  absent existing.dispute_deadline fun standing => .deadlineAlreadySet deductionId standing
  let basis ← checkEnteredDeadline deductionId deadline basis m.today
  modify (·.addDeadline deductionId deadline basis setBy)
  pure .recorded

def call (tools : Tools) (m : Moment) : Request → Call Answer
  | .recordHumanDecision deductionId preparedBy reason rationale =>
    recordHumanDecision deductionId preparedBy reason rationale
  | .assemblePacket deductionId decisionId assembledBy findings _ =>
    assemblePacket tools m deductionId decisionId assembledBy findings
  | .approve decisionId packetId approverId note _ => approve decisionId packetId approverId note
  | .recordSubmission decisionId packetId approvalId channel confirmationNumber submittedAt actorId =>
    recordSubmission decisionId packetId approvalId channel confirmationNumber submittedAt actorId
  | .recordOutcome deductionId outcome recoveredCents recordedBy note =>
    recordOutcome deductionId outcome recoveredCents recordedBy note
  | .declineCase deductionId reason decidedBy missingEvidence detail =>
    declineCase deductionId reason decidedBy missingEvidence detail
  | .setDisputeDeadline deductionId deadline basis setBy => setDisputeDeadline m deductionId deadline basis setBy

end Memory

/-! ## Runs -/

inductive WorkflowStore
  | postgres | memory
deriving DecidableEq

/-- A request as the store takes it. -/
def exec (store : WorkflowStore) (tools : Tools) (m : Moment) (request : Request) : Call Answer :=
  match store with
  | .postgres => transaction (Postgres.call tools m request)
  | .memory => Memory.call tools m request

/-- A step of a run: a request, refused or not, or a change of what a letter is written from. -/
inductive Step
  | call (m : Moment) (request : Request)
  | papers (papers : Papers)

def Step.run (store : WorkflowStore) (tools : Tools) (s : Db) : Step → Db
  | .call m request => after (exec store tools m request) s
  | .papers changed => { s with papers := changed }

def run (store : WorkflowStore) (tools : Tools) (steps : List Step) (s : Db) : Db :=
  steps.foldl (fun s step => step.run store tools s) s

end Recouple.Database.Workflow
