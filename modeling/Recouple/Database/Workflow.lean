import Recouple.Core.Packet
import Recouple.Core.Reconciliation
import Recouple.Core.StateMachine
import Recouple.Lib.Guarded
import Recouple.Lib.Rows

/-!
# Working a case: `workflow.ts` 123-1265, `store.ts` 5175-5440, 0005 (65-148), 0016, 0031, `state-machine.ts`

A person decides, a packet is assembled, a second person approves it, somebody files it and records what came
back. What both stores share: the rows, the transition table, what a caller is refused, and the checks that are
the same text in both. The rows are one tenant's.

Ids and people are numbers, and so are times. SHA-256 and how a uuid is written are given (`Tools`); a decision's
`input_state_hash` and an event's time are written and never read here.
-/

namespace Recouple.Database.Workflow
open Js Guarded Recouple.Packet
open Pipeline (CaseState UploadSource)

/-! ## Who -/

inductive MembershipRole
  | owner | approver | analyst | read_only | accountant_guest
deriving DecidableEq

def writerRoles : List MembershipRole := [.owner, .approver, .analyst]

def approverRoles : List MembershipRole := [.owner, .approver]

/-! ## The transition table -/

inductive CaseOutcome
  | won | partially | lost
deriving DecidableEq

def CaseOutcome.state : CaseOutcome → CaseState
  | .won => .won
  | .partially => .partially
  | .lost => .lost

inductive Trigger
  | document_classified | evidence_planned | decision_recorded | evidence_sufficient | decision_routed
  | evidence_requested | packet_assembled | submission_recorded | writeoff_recorded | outcome_detected
  | outcome_recorded | merged_into | merge_undone | removed
  | approval_granted | declined | deadline_set
deriving DecidableEq

def Trigger.text : Trigger → Text
  | document_classified => "document.classified"
  | evidence_planned => "evidence.planned"
  | decision_recorded => "decision.recorded"
  | evidence_sufficient => "evidence.sufficient"
  | decision_routed => "decision.routed"
  | evidence_requested => "evidence.requested"
  | packet_assembled => "packet.assembled"
  | submission_recorded => "submission.recorded"
  | writeoff_recorded => "writeoff.recorded"
  | outcome_detected => "outcome.detected"
  | outcome_recorded => "outcome.recorded"
  | merged_into => "case.merged_into"
  | merge_undone => "case.merge_undone"
  | removed => "case.removed"
  | approval_granted => "approval.granted"
  | declined => "case.declined"
  | deadline_set => "case.deadline_set"

structure Transition where
  source : CaseState
  target : CaseState
  trigger : Trigger
deriving DecidableEq

/-- `TRANSITIONS`, without the guards: every call below names the one its edge asks for (`mem_transitions_iff`). -/
def transitions : List Transition :=
  [⟨.discovered, .classified, .document_classified⟩,
    ⟨.classified, .evidence_pending, .evidence_planned⟩,
    ⟨.classified, .analyst_review, .decision_recorded⟩,
    ⟨.evidence_pending, .evidence_complete, .evidence_sufficient⟩,
    ⟨.evidence_complete, .decided, .decision_recorded⟩,
    ⟨.decided, .auto_dispute_queued, .decision_routed⟩,
    ⟨.decided, .analyst_review, .decision_routed⟩,
    ⟨.decided, .auto_writeoff_queued, .decision_routed⟩,
    ⟨.analyst_review, .evidence_pending, .evidence_requested⟩,
    ⟨.auto_dispute_queued, .awaiting_approval, .packet_assembled⟩,
    ⟨.analyst_review, .awaiting_approval, .packet_assembled⟩,
    ⟨.auto_writeoff_queued, .awaiting_approval, .packet_assembled⟩,
    ⟨.awaiting_approval, .submitted, .submission_recorded⟩,
    ⟨.awaiting_approval, .written_off, .writeoff_recorded⟩] ++
  [.won, .lost, .partially].map (⟨.submitted, ·, .outcome_detected⟩) ++
  [.won, .partially, .lost].map (⟨.submitted, ·, .outcome_recorded⟩) ++
  StateMachine.MERGEABLE_STATES.flatMap (fun state => [⟨state, .merged, .merged_into⟩, ⟨.merged, state, .merge_undone⟩]) ++
  StateMachine.MERGEABLE_STATES.map (⟨·, .removed, .removed⟩)

def TRIGGERS : List Trigger :=
  [.document_classified, .evidence_planned, .decision_recorded, .evidence_sufficient, .decision_routed,
    .evidence_requested, .packet_assembled, .submission_recorded, .writeoff_recorded, .outcome_detected,
    .outcome_recorded, .merged_into, .merge_undone, .removed, .approval_granted, .declined, .deadline_set]

theorem Trigger.text_injective {a b : Trigger} (h : a.text = b.text) : a = b := by
  have hall : ∀ t : Trigger, t ∈ TRIGGERS := by
    intro t
    cases t <;> decide
  have hnodup : (TRIGGERS.map Trigger.text).Nodup := by decide +kernel
  exact List.inj_on_of_nodup_map hnodup (hall a) (hall b) h

/-- The edges are those of `TRANSITIONS`, each under its trigger. -/
theorem transitions_eq : (transitions.map fun t => (t.source, t.target, t.trigger.text)) =
    StateMachine.TRANSITIONS.map fun t => (t.from, t.to, t.trigger) := by decide +kernel

/-- An edge is one the state machine crosses once its guards are met. -/
theorem mem_transitions_iff {source target : CaseState} {trigger : Trigger} :
    ⟨source, target, trigger⟩ ∈ transitions ↔
      ∃ t, StateMachine.applyTransition source target trigger.text (fun _ => true) = .ok t := by
  have hedge : (source, target, trigger.text) ∈ (transitions.map fun t => (t.source, t.target, t.trigger.text)) ↔
      (source, target, trigger.text) ∈ (StateMachine.TRANSITIONS.map fun t => (t.from, t.to, t.trigger)) := by
    rw [transitions_eq]
  simp only [List.mem_map, Prod.mk.injEq] at hedge
  constructor
  · intro h
    obtain ⟨t, ht, hsource, htarget, htrigger⟩ := hedge.1 ⟨_, h, rfl, rfl, rfl⟩
    exact ⟨t, StateMachine.applyTransition_ok.2 ⟨ht, hsource, htarget, htrigger, fun _ _ => rfl⟩⟩
  · rintro ⟨t, h⟩
    obtain ⟨ht, hsource, htarget, htrigger, -⟩ := StateMachine.applyTransition_ok.1 h
    obtain ⟨⟨source', target', trigger'⟩, h, hs, ht', htext⟩ := hedge.2 ⟨t, ht, hsource, htarget, htrigger⟩
    dsimp only at hs ht' htext
    rwa [hs, ht', Trigger.text_injective htext] at h

/-- `isClosed` -/
def isClosed (state : CaseState) : Bool := state ∈ StateMachine.CLOSED_STATES

/-! ## Rows -/

structure Case where
  id : Nat
  state : CaseState
  claim_id : Option Text
  deduction_amount_cents : Option Int
  deduction_date : Option Text
  dispute_deadline : Option Text
deriving DecidableEq

structure Document where
  id : Nat
  filename : Text
  sha256 : Text
  created_at : Nat
  observed_from : Option UploadSource
  asserted_from : Option UploadSource
deriving DecidableEq

structure DocumentLink where
  deduction_id : Nat
  document_id : Nat
  role : DocumentRole
deriving DecidableEq

/-- What a case's letter is written from besides the case's row. None of the calls below writes it. -/
structure Papers where
  organization : Option Text
  retailers : List (Nat × Text)
  documents : List Document
  deduction_documents : List DocumentLink
  invoice_numbers : List (Nat × Text)
deriving DecidableEq

structure Decision where
  id : Nat
  deduction_id : Nat
  reason : Text
  rationale : Text
  prepared_by : Nat
deriving DecidableEq

structure Packet where
  id : Nat
  deduction_id : Nat
  decision_id : Nat
  content_hash : Text
  narrative : Text
  file_document_ids : List Nat
  assembled_by : Nat
  created_at : Nat
deriving DecidableEq

inductive ActionType
  | submit | writeoff | writeback
deriving DecidableEq

structure Approval where
  id : Nat
  decision_id : Nat
  approver_id : Nat
  action_type : ActionType
  note : Option Text
  packet_hash : Option Text
deriving DecidableEq

inductive Channel
  | manual_portal | email | portal_agent
deriving DecidableEq

structure Submission where
  id : Nat
  deduction_id : Nat
  decision_id : Nat
  channel : Channel
  packet_hash : Text
  confirmation_number : Text
  submitted_at : Nat
deriving DecidableEq

inductive ProvenanceKind
  | observed | asserted
deriving DecidableEq

/-- A row of `declined_candidates`. -/
structure Decline where
  id : Nat
  deduction_id : Nat
  discovered_from : Option (UploadSource × ProvenanceKind)
  reason : Text
  estimated_recoverable_cents : Int
  missing_evidence : List Text
  detail : Option Text
  decided_by : Text
deriving DecidableEq

inductive Payload
  | decision_recorded (decision_id : Nat) (reason rationale : Text) (prepared_by : Nat)
  | packet_assembled (packet_id decision_id : Nat) (content_hash : Text) (file_document_ids : List Nat) (assembled_by : Nat)
  | approval_granted (approval_id decision_id : Nat) (action_type : ActionType) (packet_hash : Option Text)
      (approver_id : Nat)
  | submission_recorded (submission_id decision_id : Nat) (channel : Channel) (packet_hash confirmation_number : Text)
      (submitted_at recorded_by : Nat)
  | outcome_recorded (outcome : CaseOutcome) (recovered_cents : Int) (recorded_by : Nat) (note : Option Text)
  | deadline_set (dispute_deadline basis : Text) (set_by : Nat)
  | declined (declined_candidate_id : Nat) (reason : Text) (estimated_recoverable_cents : Int)
      (discovered_from : UploadSource) (provenance_kind : ProvenanceKind) (decided_by : Text)
      (missing_evidence : List Text)
deriving DecidableEq

structure Event where
  deduction_id : Nat
  payload : Payload
deriving DecidableEq

structure Db where
  memberships : List (Nat × MembershipRole)
  papers : Papers
  cases : List Case
  decisions : List Decision
  packets : List Packet
  approvals : List Approval
  submissions : List Submission
  declined_candidates : List Decline
  deduction_events : List Event
deriving DecidableEq

namespace Db

def roleOf (s : Db) (user : Nat) : Option MembershipRole := s.memberships.lookup user

def find (s : Db) (id : Nat) : Option Case := Rows.lookup Case.id s.cases id

def stateOf (s : Db) (id : Nat) : Option CaseState := (s.find id).map (·.state)

def decision (s : Db) (id : Nat) : Option Decision := Rows.lookup Decision.id s.decisions id

def packet (s : Db) (id : Nat) : Option Packet := Rows.lookup Packet.id s.packets id

/-- The packet assembled under these contents. -/
def packetWith (s : Db) (decision_id : Nat) (content_hash : Text) : Option Packet :=
  s.packets.find? fun p => p.decision_id = decision_id ∧ p.content_hash = content_hash

def submitApproval (s : Db) (decision_id : Nat) : Option Approval :=
  s.approvals.find? fun a => a.decision_id = decision_id ∧ a.action_type = .submit

def submission (s : Db) (decision_id : Nat) (channel : Channel) : Option Submission :=
  s.submissions.find? fun f => f.decision_id = decision_id ∧ f.channel = channel

/-- The first decline of a case. -/
def decline (s : Db) (deduction_id : Nat) : Option Decline :=
  s.declined_candidates.find? fun k => k.deduction_id = deduction_id

/-- The first decision on a case. -/
def decisionOn (s : Db) (deduction_id : Nat) : Option Decision :=
  s.decisions.find? fun d => d.deduction_id = deduction_id

def withState (s : Db) (id : Nat) (state : CaseState) : Db :=
  { s with cases := Rows.modify Case.id s.cases id fun c => { c with state := state } }

def withEvent (s : Db) (deduction_id : Nat) (payload : Payload) : Db :=
  { s with deduction_events := s.deduction_events ++ [⟨deduction_id, payload⟩] }

def withDeadline (s : Db) (id : Nat) (deadline : Text) : Db :=
  { s with cases := Rows.modify Case.id s.cases id fun c => { c with dispute_deadline := some deadline } }

/-! What one call writes: its row, its event and the state it moves the case to. -/

def addDecision (s : Db) (d : Decision) : Db :=
  ({ s with decisions := s.decisions ++ [d] }.withEvent d.deduction_id
    (.decision_recorded d.id d.reason d.rationale d.prepared_by)).withState d.deduction_id .analyst_review

def addPacket (s : Db) (p : Packet) (source : CaseState) : Db :=
  let s := { s with packets := s.packets ++ [p] }.withEvent p.deduction_id
    (.packet_assembled p.id p.decision_id p.content_hash p.file_document_ids p.assembled_by)
  if source = .analyst_review then s.withState p.deduction_id .awaiting_approval else s

/-- The row of an approval; `withGrant` is its event. -/
def addApproval (s : Db) (a : Approval) : Db := { s with approvals := s.approvals ++ [a] }

def withGrant (s : Db) (deduction_id : Nat) (a : Approval) : Db :=
  s.withEvent deduction_id (.approval_granted a.id a.decision_id a.action_type a.packet_hash a.approver_id)

def addSubmission (s : Db) (f : Submission) (recorded_by : Nat) : Db :=
  ({ s with submissions := s.submissions ++ [f] }.withEvent f.deduction_id
    (.submission_recorded f.id f.decision_id f.channel f.packet_hash f.confirmation_number f.submitted_at
      recorded_by)).withState f.deduction_id .submitted

def addOutcome (s : Db) (deduction_id : Nat) (outcome : CaseOutcome) (recovered_cents : Int) (recorded_by : Nat)
    (note : Option Text) : Db :=
  (s.withEvent deduction_id (.outcome_recorded outcome recovered_cents recorded_by note)).withState deduction_id
    outcome.state

def addDeadline (s : Db) (deduction_id : Nat) (deadline basis : Text) (set_by : Nat) : Db :=
  (s.withDeadline deduction_id deadline).withEvent deduction_id (.deadline_set deadline basis set_by)

/-- The event of a decline says the channel, which only a decline that derived one has. -/
def addDecline (s : Db) (k : Decline) : Db :=
  let s := { s with declined_candidates := s.declined_candidates ++ [k] }
  match k.discovered_from with
  | some (source, kind) => s.withEvent k.deduction_id
      (.declined k.id k.reason k.estimated_recoverable_cents source kind k.decided_by k.missing_evidence)
  | none => s

end Db

/-! ## Refusals -/

inductive Act
  | decide | assemble | approve | submit | recordOutcome | setDeadline
deriving DecidableEq

inductive DeadlineRefusal
  | not_a_date | in_the_past | too_far_out
deriving DecidableEq

inductive Refusal
  | actorIsNotTheSession (actorId callerId : Nat) (action : Act)
  | wrongRole (userId : Nat) (action : Act) (requiredRoles : List MembershipRole)
  | caseNotVisible (deductionId : Nat)
  | wrongCaseState (deductionId : Nat) (action : Act) (state : CaseState) (expected : List CaseState)
  | illegalTransition (source target : CaseState) (trigger : Trigger)
  | caseAlreadyDeclined (deductionId declinedCandidateId : Nat)
  | rationaleRequired (deductionId : Nat)
  | rationaleTooLong (deductionId length maxLength : Nat)
  | notACanonicalReason (deductionId : Nat) (reason : Text)
  | humanDecisionAuthor
  | decisionNotForCase (decisionId deductionId : Nat)
  | decisionNotFound (decisionId : Nat) (action : Act)
  | nothingToSend (deductionId : Nat)
  | noOrganization
  | amountNotExact (deductionId : Nat)
  | packetNotBuildable (deductionId decisionId : Nat) (detail : Text)
  | packetAfterApproval (decisionId : Nat) (approvedPacketHash : Text)
  | packetNotForDecision (packetId decisionId : Nat) (action : Act)
  | packetSuperseded (decisionId : Nat) (packetHash latestPacketHash : Text)
  | approvalAuthor
  | preparerCannotApprove (decisionId approverId : Nat)
  | duplicateApproval (decisionId existingApprovalId : Nat)
  | approvedPacketMissing (decisionId : Nat)
  | noApprovalForSubmission (decisionId : Nat)
  | approvalNamesNoPacket (approvalId : Nat)
  | packetHashMismatch (decisionId : Nat) (approvedHash submittedHash : Text)
  | confirmationNumberRequired (decisionId : Nat)
  | approvalGateRefused (decisionId : Nat)
  | duplicateSubmission (decisionId : Nat) (channel : Channel) (existingSubmissionId : Nat)
  | invalidRecoveryAmount (deductionId : Nat) (outcome : CaseOutcome) (recoveredCents : Rat)
  | deadlineAlreadySet (deductionId : Nat) (existing : Text)
  | deadlineOutOfRange (deductionId : Nat) (deadline : Text) (refusal : DeadlineRefusal)
  | deadlineBasisRequired (deductionId : Nat)
  | deadlineBasisTooLong (deductionId length maxLength : Nat)
  | caseMergedAway (deductionId : Nat)
  | caseNotDeclinable (deductionId : Nat) (state : CaseState) (decisionId : Option Nat)
  | provenanceUnknown (deductionId : Nat) (noticeDocumentId : Option Nat)
  | notAnEvidenceType (evidence : Text)
  | alreadyDeclined (deductionId declinedCandidateId : Nat)
  | constraint

/-- A call of a store. -/
abbrev Call := EStateM Refusal Db

/-! ## What both stores check alike -/

/-- `applyTransition`, its guard given. -/
def applyTransition (source target : CaseState) (trigger : Trigger) : Call Unit :=
  require (⟨source, target, trigger⟩ ∈ transitions) (.illegalTransition source target trigger)

/-- The rationale and the reason of a decision; the rationale is kept trimmed. -/
def checkRationale (deductionId : Nat) (reason rationale : Text) : Call Text := do
  let rationale := trim rationale
  require (rationale ≠ []) (.rationaleRequired deductionId)
  require (utf16Length rationale ≤ maxRationaleLength)
    (.rationaleTooLong deductionId (utf16Length rationale) maxRationaleLength)
  require (isCanonicalReasonCode reason = true) (.notACanonicalReason deductionId reason)
  pure rationale

/-- Won recovers the whole deduction, lost nothing, partial something in between. -/
def CaseOutcome.fits (recovered deduction : Int) : CaseOutcome → Bool
  | .lost => recovered = 0
  | .won => recovered = deduction
  | .partially => 0 < recovered && recovered < deduction

/-- `checkRecoveredCents` -/
def checkRecoveredCents (deductionId : Nat) (outcome : CaseOutcome) (recoveredCents : Rat) (deduction : Int) : Call Unit :=
  require (recoveredCents.den = 1 ∧ recoveredCents.num ≤ maxSafe ∧ 0 ≤ recoveredCents.num ∧
      outcome.fits recoveredCents.num deduction = true)
    (.invalidRecoveryAmount deductionId outcome recoveredCents)

structure Tools where
  /-- SHA-256 in hexadecimal digits -/
  sha256 : Text → Text
  /-- an id as it is written -/
  uuid : Nat → Text

/-- `packetContentHash` -/
def packetContentHash (tools : Tools) (decisionId : Nat) (narrative : Text) (fileDocumentIds : List Nat) : Text :=
  tools.sha256 (packetContents (tools.uuid decisionId) (fileDocumentIds.map tools.uuid) narrative)

/-- `calendarDate`, in days: `Date.UTC` moves the years 0 to 99, so none of them reads back. -/
def calendarDate (text : Text) : Option Int := do
  let (year, month, day) ← dateParts text
  if 100 ≤ year ∧ 1 ≤ month ∧ month ≤ 12 ∧ 1 ≤ day ∧ day ≤ daysInMonth year month then
    some (Books.utcDay year ((month : Int) - 1) day)
  else none

/-- `checkEnteredDeadline`, `today` in days from 1970-01-01. -/
def checkEnteredDeadline (deductionId : Nat) (deadline basis : Text) (today : Int) : Call Text := do
  let day ← found (calendarDate deadline) (.deadlineOutOfRange deductionId deadline .not_a_date)
  require (today - 1 ≤ day) (.deadlineOutOfRange deductionId deadline .in_the_past)
  require (day ≤ today + 730) (.deadlineOutOfRange deductionId deadline .too_far_out)
  let basis := trim basis
  require (basis ≠ []) (.deadlineBasisRequired deductionId)
  require (utf16Length basis ≤ 280) (.deadlineBasisTooLong deductionId (utf16Length basis) 280)
  pure basis

/-- The states a deadline may be entered in. -/
def openStates : List CaseState :=
  [.discovered, .classified, .evidence_pending, .evidence_complete, .decided, .auto_dispute_queued,
    .analyst_review, .auto_writeoff_queued, .awaiting_approval, .submitted]

/-- `DECLINABLE_STATES` -/
def declinableStates : List CaseState := [.discovered, .classified]

/-- `MISSING_EVIDENCE_TYPES` -/
def missingEvidenceTypes : List Text :=
  ["proof_of_delivery".toList, "bill_of_lading".toList, "invoice".toList, "purchase_order".toList,
    "receiving_report".toList, "timesheet".toList, "rate_agreement".toList, "correspondence".toList]

/-! ## Requests -/

inductive Request
  | recordHumanDecision (deductionId preparedBy : Nat) (reason rationale : Text)
  | assemblePacket (deductionId decisionId assembledBy : Nat) (findings : List Finding) (letterTerms : LetterTerms)
  | approve (decisionId packetId approverId : Nat) (note : Option Text) (alsoWriteback : Bool)
  | recordSubmission (decisionId packetId approvalId : Nat) (channel : Channel) (confirmationNumber : Text)
      (submittedAt actorId : Nat)
  | recordOutcome (deductionId : Nat) (outcome : CaseOutcome) (recoveredCents : Rat) (recordedBy : Nat)
      (note : Option Text)
  | declineCase (deductionId : Nat) (reason decidedBy : Text) (missingEvidence : List Text) (detail : Option Text)
  | setDisputeDeadline (deductionId : Nat) (deadline basis : Text) (setBy : Nat)

/-- Whose session asks, and what the moment gives: the ids of the rows it makes, when its transaction began, and
the day. -/
structure Moment where
  caller : Nat
  newId : Nat
  secondId : Nat
  now : Nat
  today : Int
deriving DecidableEq

/-- What a call answers. -/
inductive Answer
  | decided (decisionId : Nat)
  | assembled (packetId : Nat) (contentHash narrative : Text) (fileDocumentIds : List Nat)
  | approved (approvalId deductionId : Nat)
  | submitted (submissionId deductionId : Nat)
  | recorded
  | declined (declinedCandidateId : Nat)
deriving DecidableEq

end Recouple.Database.Workflow
