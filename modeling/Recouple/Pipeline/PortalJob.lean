import Mathlib
import Recouple.Lib.Calls
import Recouple.Lib.Text

/-!
# What a portal read names, records and calls: `packages/pipeline/src/portal-job.ts` (58-600)

| here | there |
| --- | --- |
| `World` | the rows of the run, whose id is new, and whether the worker has started it |
| `Answer` | what the store or the worker answers at each moment it is asked, a thrown error included |
| `recordRunStart`, `recordRunEnd` | the store's writes: a repeat is a replay, any other second call is refused |
| `PortalError`, `isSettled`, `errorClassOf` | the errors by name, with `isSettled` of `apps/web/lib/inngest-portal.ts` (766) |
-/

namespace Recouple.PortalJob
open Js Calls

/-! ## What a run can end as -/

inductive PortalJobWorkerNeedsAttention
  | mfa_unanswerable | challenge | page_changed | terms_prompt | credential_rejected | session_expired
  | account_mismatch | binding_mismatch
deriving DecidableEq

/-- The worker's reasons, and one only this job finds at the door. -/
inductive PortalJobNeedsAttention
  | worker (reason : PortalJobWorkerNeedsAttention)
  | capture_refused
deriving DecidableEq

inductive PortalJobRunnerFailure
  | guard_refused | never_click | file_input | cap_exceeded | sign_in_form_refused
deriving DecidableEq

inductive PortalJobRunEnd
  | completed
  | not_configured (errorClass : Text)
  | refused (errorClass : Text)
  | needs_attention (reason : PortalJobNeedsAttention)
  | failed (reason : PortalJobRunnerFailure)
  | error (errorClass : Text)
deriving DecidableEq

structure PortalJobRunCounts where
  pages : Nat
  captures : Nat
  newDocuments : Nat
  deduplicated : Nat
  /-- Requests the guard refused. -/
  refusals : Nat
deriving DecidableEq

structure PortalJobStepLogEntry where
  step : Text
  passed : Bool
deriving DecidableEq

/-! ## The store -/

/-- What this job reads of a recipe. -/
class PortalJobRecipe (R : Type) where
  portalKey : R → Text
  portalAdr : R → Text
  /-- `none` is a number that is not finite. -/
  maxRunMs : R → Option ℚ

structure PortalJobConnection where
  connectionId : Text
  orgId : Text
  portalKey : Text
  accountId : Text
  params : List (Text × Text)
  enabled : Bool
  createdBy : Text

inductive RecipeVerdict | promoted | rejected
deriving DecidableEq

structure PortalJobRecipeVersion (R : Type) where
  recipeVersionId : Text
  portalKey : Text
  recipe : R
  review : Option RecipeVerdict

structure PortalJobBinding where
  signInOrigin : Text
  signInPaths : List Text
  hostsHash : Text
deriving DecidableEq

structure PortalJobSealedCredential where
  cipher : Text
  keyId : Text
  wrappedKey : Text
  ciphertext : Text

structure PortalJobCredential where
  credentialId : Text
  connectionId : Text
  sealed : PortalJobSealedCredential
  binding : PortalJobBinding

structure PortalJobRunStart where
  runId : Text
  orgId : Text
  connectionId : Text
  recipeVersionId : Option Text
  dryRun : Bool
  requestedBy : Text
deriving DecidableEq

structure PortalJobRunEndInput where
  runId : Text
  orgId : Text
  ended : PortalJobRunEnd
  atStep : Option Text
  counts : PortalJobRunCounts
  stepLog : List PortalJobStepLogEntry
deriving DecidableEq

inductive PortalJobCaptureKind | page_snapshot | download
deriving DecidableEq

inductive RejectionCode
  | empty_file | body_too_short | too_large | type_not_allowed | content_does_not_match_type | encrypted_pdf
  | active_content_pdf | decompression_bomb | malformed_pdf | macro_enabled_spreadsheet | active_content_spreadsheet
  | legacy_or_encrypted_office | xml_dtd_refused | malformed_spreadsheet | spreadsheet_too_large
deriving DecidableEq

structure PortalJobCaptureRow where
  runId : Text
  orgId : Text
  recipeVersionId : Text
  kind : PortalJobCaptureKind
  stepName : Text
  pagePath : Text
  snapshotRuleVersion : Option Nat
  sha256 : Text
  capturedAt : Text
deriving DecidableEq

/-- A capture row names the document it became, or why the door refused it. -/
structure PortalJobCaptureInput where
  row : PortalJobCaptureRow
  became : RejectionCode ⊕ Text
deriving DecidableEq

inductive PortalJobDisableAnswer | disabled | newer_credential | already_off | not_visible
deriving DecidableEq

/-! ## The worker -/

structure PortalJobRunRequest (R : Type) where
  runId : Text
  orgId : Text
  connectionId : Text
  recipe : R
  binding : PortalJobBinding
  sealed : PortalJobSealedCredential
  params : List (Text × Text)
  expectAccountId : Text
  dryRun : Bool

inductive RunState | running | done
deriving DecidableEq

structure PortalJobRunHandle where
  runId : Text
  state : RunState

structure PortalJobCaptureSummary where
  index : Nat
  kind : PortalJobCaptureKind
  stepName : Text
  sha256 : Text
  byteLength : Nat

inductive PortalWorkerRunEnd
  | completed
  | needs_attention (reason : PortalJobWorkerNeedsAttention) (atStep : Option Text)
  | failed (reason : PortalJobRunnerFailure) (atStep : Option Text)
  | error (errorClass : Text) (atStep : Option Text)

/-- The worker's counts of a run. -/
structure PortalWorkerCounts where
  pages : Nat
  captures : Nat
  refusals : Nat

structure PortalJobRunResult where
  runId : Text
  counts : PortalWorkerCounts
  steps : List PortalJobStepLogEntry
  captures : List PortalJobCaptureSummary
  ended : PortalWorkerRunEnd

structure PortalJobRunCapture where
  runId : Text
  index : Nat
  kind : PortalJobCaptureKind
  stepName : Text
  filename : Text
  contentType : Text
  pagePath : Text
  snapshotRuleVersion : Option Nat
  capturedAt : Text
  sha256 : Text
  bodyBase64 : Text

/-! ## Results and errors -/

structure PortalReadJobResult where
  runId : Text
  connectionId : Text
  orgId : Text
  dryRun : Bool
  recipeVersionId : Option Text
  ended : PortalJobRunEnd
  atStep : Option Text
  counts : PortalJobRunCounts
  documentIds : List Text
  disabled : Option PortalJobDisableAnswer

/-- The steps, as the job names them to the runtime. -/
inductive StepId
  | mintRunId | prepare | start | poll (n : Nat) | result | known (n : Nat) | capture (n : Nat) | finish
  | recordFailure | requestReads
deriving DecidableEq

/-- The errors named in `PORTAL_READ_ERROR_CLASSES`. -/
inductive PortalReadErrorClass
  | connectionDisabled | memberMayNotWrite | memberNotOwner | termsNotAllowing | recipeRejected
  | workerNotConfigured | recipeNotConfigured | credentialNotConfigured
  | runLost | runTimedOut | workerBusy | workerRefused | workerUnavailable | workerContract | captureIntegrity
  | captureUnscanned
deriving DecidableEq

def PortalReadErrorClass.name : PortalReadErrorClass → Text
  | connectionDisabled => "PortalConnectionDisabledError".toList
  | memberMayNotWrite => "PortalReadRefusedError".toList
  | memberNotOwner => "PortalReadOwnerRequiredError".toList
  | termsNotAllowing => "PortalTermsNotRecordedError".toList
  | recipeRejected => "PortalRecipeRejectedError".toList
  | workerNotConfigured => "PortalWorkerNotConfiguredError".toList
  | recipeNotConfigured => "PortalRecipeNotConfiguredError".toList
  | credentialNotConfigured => "PortalCredentialNotConfiguredError".toList
  | runLost => "PortalRunLostError".toList
  | runTimedOut => "PortalRunTimedOutError".toList
  | workerBusy => "PortalWorkerBusyError".toList
  | workerRefused => "PortalWorkerRefusedError".toList
  | workerUnavailable => "PortalWorkerUnavailableError".toList
  | workerContract => "PortalWorkerContractError".toList
  | captureIntegrity => "PortalCaptureIntegrityError".toList
  | captureUnscanned => "PortalCaptureUnscannedError".toList

inductive PortalError
  | portal (c : PortalReadErrorClass)
  /-- `PortalReadJobError` -/
  | job
  | connectionNotFound
  | versionNotFound
  /-- `PortalStoreError`, or a check the database did not name: a store's own refusal. -/
  | store
  /-- `PortalRunAlertError` -/
  | alert (result : PortalReadJobResult)
  /-- What a step failed with, named as the original. -/
  | step (id : StepId) (name : Text)
  | other (name : Text)

def PortalError.name : PortalError → Text
  | portal c => c.name
  | job => "PortalReadJobError".toList
  | connectionNotFound => "PortalReadConnectionNotFoundError".toList
  | versionNotFound => "PortalReadVersionNotFoundError".toList
  | store => "PortalStoreError".toList
  | alert result =>
    match result.ended with
    | .needs_attention (.worker .credential_rejected) => "PortalCredentialRejectedError".toList
    | .needs_attention (.worker .session_expired) => "PortalSessionExpiredError".toList
    | _ => "PortalRunFailedError".toList
  | step _ name => name
  | other name => name

/-- `isSettledPortalReadError` and the store's own refusals: what asking again would not change. -/
def isSettled : PortalError → Bool
  | .job | .connectionNotFound | .versionNotFound | .store | .alert _ => true
  | .portal .runLost | .portal .runTimedOut | .portal .workerRefused | .portal .workerContract => true
  | _ => false

/-- `errorClassOf`, and `classNameOf` of the runtime: a class name, or `Error`. -/
def errorClassOf (error : PortalError) : Text :=
  let start (c : Char) : Bool := c.isAlpha || c = '_' || c = '$'
  match error.name with
  | [] => "Error".toList
  | c :: rest =>
    if error.name.length ≤ 100 ∧ start c ∧ rest.all (fun c => start c || c.isDigit) then error.name
    else "Error".toList

def portalRunNeedsAlert : PortalJobRunEnd → Bool
  | .failed _ | .error _ => true
  | .needs_attention (.worker reason) => reason = .credential_rejected || reason = .session_expired
  | _ => false

/-! ## The world the job calls -/

structure RecordedEnd where
  moment : Nat
  row : PortalJobRunEndInput

/-- `portal_read_runs` and its outcome rows as far as they are this run's, the moment the worker started it, and what
was captured and asked to be read. -/
structure World where
  clock : Nat
  starts : List PortalJobRunStart
  ends : List RecordedEnd
  started : Option Nat
  captures : List PortalJobCaptureInput
  requested : List Text

def World.tick (w : World) : World := { w with clock := w.clock + 1 }

abbrev Answer (α : Type) := Nat → Except PortalError α

abbrev Job (α : Type) := Calls World PortalError α

structure PortalReadJobStore (R : Type) where
  memberMayWrite (orgId userId : Text) : Answer Bool
  memberIsOwner (orgId userId : Text) : Answer Bool
  connection (connectionId : Text) : Answer (Option PortalJobConnection)
  promotedRecipe (connectionId : Text) : Answer (Option (PortalJobRecipeVersion R))
  recipeVersion (recipeVersionId : Text) : Answer (Option (PortalJobRecipeVersion R))
  latestCredential (connectionId : Text) : Answer (Option PortalJobCredential)
  disableConnection (connectionId credentialId : Text) : Answer (Option PortalJobDisableAnswer)
  /-- Whether a write is taken at all. -/
  admits : Answer Unit
  /-- The document a new capture is stored as. -/
  newDocument (row : PortalJobCaptureRow) : Answer Text

structure PortalWorkerClient (R : Type) where
  /-- Whether the request started the run on the worker, and what it answered. -/
  startRun (request : PortalJobRunRequest R) : Nat → Bool × Except PortalError PortalJobRunHandle
  runState (runId : Text) : Answer PortalJobRunHandle
  runResult (runId : Text) : Answer PortalJobRunResult
  capture (runId : Text) (index : Nat) : Answer PortalJobRunCapture

inductive ResolvedPortalWorker (R : Type)
  | ready (client : PortalWorkerClient R)
  | not_configured

inductive ScanStatus | clean | infected | error
deriving DecidableEq

/-- The ordinary door: what it takes, the documents it holds, and the scanner. -/
structure Ingest where
  accept (kind : PortalJobCaptureKind) (bytes : List UInt8) (filename : Text) : Except RejectionCode Unit
  findDocumentByHash (orgId sha256 : Text) : Answer (Option Text)
  latestScan (documentId : Text) : Answer (Option ScanStatus)
  scan (bytes : List UInt8) : Answer ScanStatus

structure PortalTermsAllowance where
  portalKey : Text

structure PortalReadJobDeps (R : Type) where
  store : PortalReadJobStore R
  /-- The deployment's worker, when it is looked for. -/
  worker : Nat → ResolvedPortalWorker R
  terms : List (Text × PortalTermsAllowance)
  bindingOf : R → PortalJobBinding
  ingest : Ingest
  randomUUID : Nat → Text
  fromBase64 : Text → List UInt8
  sha256 : List UInt8 → Text

structure PortalReadJobInput where
  connectionId : Text
  orgId : Text
  userId : Text
  dryRun : Bool
  recipeVersionId : Option Text

/-- What a call whose answer does not come throws: the database's, and the worker client's. -/
def noAnswer : PortalError := .other "Error".toList

def unavailable : PortalError := .portal .workerUnavailable

def ask {α : Type} (failure : PortalError) (answer : Answer α) : Job α :=
  call failure fun w => (answer w.clock, w.tick)

/-- A write nothing here reads: a scan's verdict, or a step's answer in the runtime. -/
def kept : Job Unit := ask noAnswer fun _ => .ok ()

/-- A write, where the store takes one. -/
def write {R : Type} (store : PortalReadJobStore R) (f : World → Except PortalError Unit × World) : Job Unit :=
  call noAnswer fun w =>
    match store.admits w.clock with
    | .error e => (.error e, w.tick)
    | .ok () => ((f w).1, (f w).2.tick)

/-- A repeat of the same arguments is a replay; any other second call is refused. -/
def recordRunStart {R : Type} (store : PortalReadJobStore R) (input : PortalJobRunStart) : Job Unit :=
  write store fun w =>
    match w.starts.find? (·.runId = input.runId) with
    | none => (.ok (), { w with starts := w.starts ++ [input] })
    | some row => if row = input then (.ok (), w) else (.error .store, w)

def recordRunEnd {R : Type} (store : PortalReadJobStore R) (input : PortalJobRunEndInput) : Job Unit :=
  write store fun w =>
    match w.ends.find? (·.row.runId = input.runId) with
    | none => (.ok (), { w with ends := w.ends ++ [⟨w.clock, input⟩] })
    | some recorded => if recorded.row = input then (.ok (), w) else (.error .store, w)

def recordCapture {R : Type} (store : PortalReadJobStore R) (input : PortalJobCaptureInput) : Job Unit :=
  write store fun w => (.ok (), if input ∈ w.captures then w else { w with captures := w.captures ++ [input] })

/-- A new capture's document and its row, in one transaction. -/
def recordNewCapture {R : Type} (store : PortalReadJobStore R) (row : PortalJobCaptureRow) : Job Text :=
  call noAnswer fun w =>
    match store.newDocument row w.clock with
    | .error e => (.error e, w.tick)
    | .ok documentId => (.ok documentId, { w.tick with captures := w.captures ++ [⟨row, .inr documentId⟩] })

end Recouple.PortalJob
