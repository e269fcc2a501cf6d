import Recouple.Pipeline.PortalJob

/-!
# One read of a payer's portal: `packages/pipeline/src/portal-job.ts` (700-1567)

| here | there |
| --- | --- |
| `step` | `steps.run` as `apps/web/lib/inngest-portal.ts` (713-760) binds it: retried, and kept once it answers |
| `permissionRefusal`, `decideRun`, `endBeforeWorker` | 1370-1509 |
| `prepareRun`, `startRun`, `onWorkerAlready` | 940-1090 |
| `pollRun`, `fetchResult`, `ingestCapture`, `finishRun`, `requestReads` | 1092-1330 |
| `followRun`, `readPortalJob` | the `try` of `readPortalJob` (808-894), and the job |

Every call may be lost, or take effect and lose its answer (`Lib/Calls`), and so may what a step answers on its way
to the runtime. Waiting between steps changes nothing here.
-/

namespace Recouple.PortalJob
open Js Calls

variable {R : Type} [PortalJobRecipe R]

/-! ## Before the worker is asked -/

/-- `RunActor`: the ids, and the member the run acts as. -/
structure RunActor where
  runId : Text
  orgId : Text
  connectionId : Text
  dryRun : Bool
  userId : Text

def NO_COUNTS : PortalJobRunCounts := ⟨0, 0, 0, 0, 0⟩

def refused (c : PortalReadErrorClass) : PortalJobRunEnd := .refused c.name

def notConfigured (c : PortalReadErrorClass) : PortalJobRunEnd := .not_configured c.name

def throwIf (broken : Prop) [Decidable broken] (error : PortalError) : Job Unit :=
  if broken then throw error else pure ()

def visibleConnection (deps : PortalReadJobDeps R) (input : PortalReadJobInput) : Job PortalJobConnection := do
  match ← ask noAnswer (deps.store.connection input.connectionId) with
  | none => throw .connectionNotFound
  | some connection =>
    throwIf (connection.orgId ≠ input.orgId ∨ connection.createdBy ≠ input.userId) .job
    return connection

def permissionRefusal (deps : PortalReadJobDeps R) (actor : RunActor) (connection : PortalJobConnection) :
    Job (Option PortalJobRunEnd) := do
  if !connection.enabled then return some (refused .connectionDisabled)
  if !(← ask noAnswer (deps.store.memberMayWrite actor.orgId actor.userId)) then
    return some (refused .memberMayNotWrite)
  if !(← ask noAnswer (deps.store.memberIsOwner actor.orgId actor.userId)) then
    return some (refused .memberNotOwner)
  return none

def samePortal (connection : PortalJobConnection) (version : PortalJobRecipeVersion R) : Bool :=
  version.portalKey = connection.portalKey && PortalJobRecipe.portalKey version.recipe = connection.portalKey

/-- `portalTermsVerdict(…).allowed` (`packages/core-domain/src/portal-terms.ts`, 126). -/
def portalTermsAllowed (recipe : R) (allowances : List (Text × PortalTermsAllowance)) : Bool :=
  let adr := PortalJobRecipe.portalAdr recipe
  adr.length = 4 && adr.all Char.isDigit &&
    match allowances.lookup adr with
    | none => false
    | some allowance => allowance.portalKey = PortalJobRecipe.portalKey recipe

inductive Decided (R : Type)
  | stop (ended : PortalJobRunEnd)
  | go (client : PortalWorkerClient R) (credential : PortalJobCredential)

def decideRun (deps : PortalReadJobDeps R) (connection : PortalJobConnection) (version : PortalJobRecipeVersion R)
    (dryRun : Bool) : Job (Decided R) := do
  if dryRun && version.review = some .rejected then return .stop (refused .recipeRejected)
  if !portalTermsAllowed version.recipe deps.terms then return .stop (refused .termsNotAllowing)
  match ← observe fun w => deps.worker w.clock with
  | .not_configured => return .stop (notConfigured .workerNotConfigured)
  | .ready client =>
    match ← ask noAnswer (deps.store.latestCredential connection.connectionId) with
    | none => return .stop (notConfigured .credentialNotConfigured)
    | some credential =>
      throwIf (credential.connectionId ≠ connection.connectionId) .job
      if deps.bindingOf version.recipe ≠ credential.binding then
        return .stop (.needs_attention (.worker .binding_mismatch))
      return .go client credential

def startRow (actor : RunActor) (recipeVersionId : Option Text) : PortalJobRunStart :=
  { runId := actor.runId, orgId := actor.orgId, connectionId := actor.connectionId,
    recipeVersionId := recipeVersionId, dryRun := actor.dryRun, requestedBy := actor.userId }

def endBeforeWorker (deps : PortalReadJobDeps R) (actor : RunActor) (recipeVersionId : Option Text)
    (ended : PortalJobRunEnd) (writeStart : Bool) : Job PortalReadJobResult := do
  if writeStart then recordRunStart deps.store (startRow actor recipeVersionId)
  recordRunEnd deps.store
    { runId := actor.runId, orgId := actor.orgId, ended := ended, atStep := none, counts := NO_COUNTS, stepLog := [] }
  return { runId := actor.runId, connectionId := actor.connectionId, orgId := actor.orgId, dryRun := actor.dryRun,
           recipeVersionId := recipeVersionId, ended := ended, atStep := none, counts := NO_COUNTS,
           documentIds := [], disabled := none }

inductive Prepared
  | ended (result : PortalReadJobResult)
  | ready (recipeVersionId : Text) (maxRunMs : Option ℚ)

/-- The version a run is to run: the one a dry run names, or the promoted one. -/
def versionOf (deps : PortalReadJobDeps R) (input : PortalReadJobInput) (connection : PortalJobConnection) :
    Job (Option (PortalJobRecipeVersion R)) :=
  match input.recipeVersionId with
  | some recipeVersionId => do
    match ← ask noAnswer (deps.store.recipeVersion recipeVersionId) with
    | none => throw .versionNotFound
    | some version => return some version
  | none => ask noAnswer (deps.store.promotedRecipe connection.connectionId)

/-- The questions, then the start row; a run that ends here has its outcome row written with it. -/
def prepareRun (deps : PortalReadJobDeps R) (input : PortalReadJobInput) (actor : RunActor) : Job Prepared := do
  let connection ← visibleConnection deps input
  match ← permissionRefusal deps actor connection with
  | some refusal => return .ended (← endBeforeWorker deps actor none refusal true)
  | none =>
    match ← versionOf deps input connection with
    | none => return .ended (← endBeforeWorker deps actor none (notConfigured .recipeNotConfigured) true)
    | some version =>
      throwIf (!samePortal connection version) .job
      match ← decideRun deps connection version input.dryRun with
      | .stop ended => return .ended (← endBeforeWorker deps actor (some version.recipeVersionId) ended true)
      | .go _ _ =>
        recordRunStart deps.store (startRow actor (some version.recipeVersionId))
        return .ready version.recipeVersionId (PortalJobRecipe.maxRunMs version.recipe)

inductive Started
  | ended (result : PortalReadJobResult)
  | started (credentialId : Text) (state : RunState)

/-- The run as the worker holds it already, if it does. -/
def onWorkerAlready (deps : PortalReadJobDeps R) (actor : RunActor) : Job (Option Started) := do
  match ← observe fun w => deps.worker w.clock with
  | .not_configured => return none
  | .ready client =>
    let held : Option PortalJobRunHandle ← Calls.handle (some <$> ask unavailable (client.runState actor.runId))
      fun
        | .portal .runLost => return none
        | error => throw error
    match held with
    | none => return none
    | some handle =>
      throwIf (handle.runId ≠ actor.runId) (.portal .workerContract)
      match ← ask noAnswer (deps.store.latestCredential actor.connectionId) with
      | none => throw .job
      | some credential => return some (.started credential.credentialId handle.state)

/-- An end found in `start` is recorded only once the worker says it does not hold the run. -/
def endUnlessStarted (deps : PortalReadJobDeps R) (actor : RunActor) (recipeVersionId : Text)
    (ended : PortalJobRunEnd) : Job Started := do
  match ← onWorkerAlready deps actor with
  | some started => return started
  | none => return .ended (← endBeforeWorker deps actor (some recipeVersionId) ended false)

def sendToWorker (client : PortalWorkerClient R) (request : PortalJobRunRequest R) : Job PortalJobRunHandle :=
  call unavailable fun w =>
    let (begun, answer) := client.startRun request w.clock
    (answer, { w.tick with started := if begun || answer.isOk then w.started.or (some w.clock) else w.started })

/-- The questions again, then the worker. -/
def startRun (deps : PortalReadJobDeps R) (input : PortalReadJobInput) (actor : RunActor) (recipeVersionId : Text) :
    Job Started := do
  let connection ← visibleConnection deps input
  match ← permissionRefusal deps actor connection with
  | some refusal => endUnlessStarted deps actor recipeVersionId refusal
  | none =>
    match ← ask noAnswer (deps.store.recipeVersion recipeVersionId) with
    | none => throw .versionNotFound
    | some version =>
      throwIf (!samePortal connection version) .job
      match ← decideRun deps connection version input.dryRun with
      | .stop ended => endUnlessStarted deps actor recipeVersionId ended
      | .go client credential =>
        let handle ← sendToWorker client
          { runId := actor.runId, orgId := actor.orgId, connectionId := actor.connectionId, recipe := version.recipe,
            binding := credential.binding, sealed := credential.sealed, params := connection.params,
            expectAccountId := connection.accountId, dryRun := actor.dryRun }
        throwIf (handle.runId ≠ actor.runId) (.portal .workerContract)
        return .started credential.credentialId handle.state

/-! ## What the worker did -/

def requireWorker (deps : PortalReadJobDeps R) : Job (PortalWorkerClient R) := do
  match ← observe fun w => deps.worker w.clock with
  | .not_configured => throw (.portal .workerNotConfigured)
  | .ready client => return client

def pollRun (deps : PortalReadJobDeps R) (runId : Text) : Job RunState := do
  let client ← requireWorker deps
  let handle ← ask unavailable (client.runState runId)
  throwIf (handle.runId ≠ runId) (.portal .workerContract)
  return handle.state

def fetchResult (deps : PortalReadJobDeps R) (actor : RunActor) : Job PortalJobRunResult := do
  let client ← requireWorker deps
  let result ← ask unavailable (client.runResult actor.runId)
  throwIf (result.runId ≠ actor.runId) (.portal .workerContract)
  throwIf (result.counts.captures ≠ result.captures.length) (.portal .workerContract)
  throwIf (actor.dryRun ∧ 0 < result.captures.length) (.portal .workerContract)
  throwIf (result.captures.map (·.index) ≠ List.range result.captures.length) (.portal .workerContract)
  return result

def tenantHolds (deps : PortalReadJobDeps R) (orgId sha256 : Text) : Job Bool := do
  return (← ask noAnswer (deps.ingest.findDocumentByHash orgId sha256)).isSome

inductive CaptureOutcome
  | stored (index : Nat) (stepName documentId : Text) (deduplicated clean : Bool)
  | refused (index : Nat) (stepName : Text) (refusal : RejectionCode)

/-- The scanner's verdict, recorded. -/
def scanned (deps : PortalReadJobDeps R) (bytes : List UInt8) : Job ScanStatus := do
  let verdict ← ask noAnswer (deps.ingest.scan bytes)
  kept
  return verdict

/-- What the door makes of bytes it takes: the document, its verdict, and whether its capture row was written with
it (`ingestDocument`, `steps.ts` 225, over `storeNewDocument`). -/
def ingestDocument (deps : PortalReadJobDeps R) (row : PortalJobCaptureRow) (bytes : List UInt8) :
    Job (Text × ScanStatus × Bool) := do
  match ← ask noAnswer (deps.ingest.findDocumentByHash row.orgId (deps.sha256 bytes)) with
  | some documentId =>
    match ← ask noAnswer (deps.ingest.latestScan documentId) with
    | some .clean => return (documentId, .clean, false)
    | some .infected => return (documentId, .infected, false)
    | _ =>
      return (documentId, ← scanned deps bytes, false)
  | none =>
    let documentId ← recordNewCapture deps.store row
    return (documentId, ← scanned deps bytes, true)

def ingestCapture (deps : PortalReadJobDeps R) (actor : RunActor) (recipeVersionId : Text)
    (summary : PortalJobCaptureSummary) (heldBefore : Bool) : Job CaptureOutcome := do
  let client ← requireWorker deps
  let capture ← ask unavailable (client.capture actor.runId summary.index)
  throwIf (capture.runId ≠ actor.runId ∨ capture.index ≠ summary.index ∨ capture.kind ≠ summary.kind ∨
    capture.stepName ≠ summary.stepName ∨ capture.sha256 ≠ summary.sha256) (.portal .workerContract)
  let bytes := deps.fromBase64 capture.bodyBase64
  throwIf (bytes.length ≠ summary.byteLength ∨ deps.sha256 bytes ≠ capture.sha256) (.portal .captureIntegrity)
  let row : PortalJobCaptureRow :=
    { runId := actor.runId, orgId := actor.orgId, recipeVersionId := recipeVersionId, kind := capture.kind,
      stepName := capture.stepName, pagePath := capture.pagePath, snapshotRuleVersion := capture.snapshotRuleVersion,
      sha256 := capture.sha256, capturedAt := capture.capturedAt }
  match deps.ingest.accept capture.kind bytes capture.filename with
  | .error code =>
    recordCapture deps.store ⟨row, .inl code⟩
    return .refused summary.index capture.stepName code
  | .ok () =>
    let (documentId, verdict, rowWritten) ← ingestDocument deps row bytes
    if !rowWritten then recordCapture deps.store ⟨row, .inr documentId⟩
    throwIf (verdict = .error) (.portal .captureUnscanned)
    return .stored summary.index capture.stepName documentId heldBefore (verdict = .clean)

/-! ## The outcome -/

/-- Stored, of bytes the tenant did not hold. -/
def CaptureOutcome.isNew : CaptureOutcome → Bool
  | stored _ _ _ deduplicated _ => !deduplicated
  | refused _ _ _ => false

def CaptureOutcome.isDeduplicated : CaptureOutcome → Bool
  | stored _ _ _ deduplicated _ => deduplicated
  | refused _ _ _ => false

def CaptureOutcome.refusedAt : CaptureOutcome → Option Text
  | stored _ _ _ _ _ => none
  | refused _ stepName _ => some stepName

def endOf (result : PortalJobRunResult) (captures : List CaptureOutcome) : PortalJobRunEnd × Option Text :=
  match result.ended with
  | .completed =>
    match captures.findSome? CaptureOutcome.refusedAt with
    | none => (.completed, none)
    | some stepName => (.needs_attention .capture_refused, some stepName)
  | .needs_attention reason atStep => (.needs_attention (.worker reason), atStep)
  | .failed reason atStep => (.failed reason, atStep)
  | .error errorClass atStep => (.error errorClass, atStep)

def countsOf (result : Option PortalJobRunResult) (captures : List CaptureOutcome) : PortalJobRunCounts :=
  { pages := (result.map (·.counts.pages)).getD 0
    captures := (result.map (·.counts.captures)).getD 0
    newDocuments := captures.countP (·.isNew)
    deduplicated := captures.countP (·.isDeduplicated)
    refusals := (result.map (·.counts.refusals)).getD 0 }

/-- A refused sign-in turns the connection off. -/
def turnOffRefused (deps : PortalReadJobDeps R) (actor : RunActor) (ended : PortalJobRunEnd) (credentialId : Text) :
    Job (Option PortalJobDisableAnswer) := do
  if ended = .needs_attention (.worker .credential_rejected) then
    let disabled ← ask noAnswer (deps.store.disableConnection actor.connectionId credentialId)
    return some (disabled.getD .not_visible)
  else return none

/-- A refused sign-in turns the connection off first; then the outcome row. -/
def finishRun (deps : PortalReadJobDeps R) (actor : RunActor) (ended : PortalJobRunEnd) (atStep : Option Text)
    (counts : PortalJobRunCounts) (stepLog : List PortalJobStepLogEntry) (credentialId : Text) :
    Job (Option PortalJobDisableAnswer) := do
  let disabled ← turnOffRefused deps actor ended credentialId
  recordRunEnd deps.store
    { runId := actor.runId, orgId := actor.orgId, ended := ended, atStep := atStep, counts := counts,
      stepLog := stepLog }
  return disabled

/-! ## The steps of the job -/

variable (retries : Nat)

/-- A step of the runtime: its work is done again where it fails, and its answer is kept. -/
def step {α : Type} (id : StepId) (work : Job α) : Job α :=
  recover (retry isSettled (do let answer ← work; kept; return answer) retries)
    fun error => throw (.step id (errorClassOf error))

def PORTAL_READ_MAX_CAPTURES : Nat := 300

/-- `portalReadPollLimit`: the worker's ceiling, grace and some slack, in waits of twenty seconds. -/
def portalReadPollLimit (maxRunMs : Option ℚ) : Nat :=
  let ceiling : ℚ := 30 * 60000
  let cap := match maxRunMs with
    | some ms => if 0 < ms then min ms ceiling else ceiling
    | none => ceiling
  ⌈(cap + 3 * 60000 + 2 * 60000) / 20000⌉.toNat + 1

/-- Polls until the run is done, `left` times at most. -/
def awaitDone (deps : PortalReadJobDeps R) (runId : Text) : Nat → Nat → RunState → Job Unit
  | _, _, .done => return ()
  | 0, _, .running => throw (.portal .runTimedOut)
  | left + 1, poll, .running => do
    let state ← step retries (.poll poll) (pollRun deps runId)
    awaitDone deps runId left (poll + 1) state

/-- Asks for every stored capture that scanned clean to be read, once each. -/
def requestReads (captures : List CaptureOutcome) : Job (List Text) := do
  let documentIds := (captures.filterMap fun
    | .stored _ _ documentId _ true => some documentId
    | _ => none).eraseDups
  if documentIds ≠ [] then
    step retries .requestReads
      (call noAnswer fun w => (.ok (), { w.tick with requested := w.requested ++ documentIds }))
  return documentIds

def settle (result : PortalReadJobResult) : Job PortalReadJobResult :=
  if portalRunNeedsAlert result.ended then throw (.alert result) else return result

/-- What a run has got to when it stops. -/
structure Progress where
  result : Option PortalJobRunResult
  captures : List CaptureOutcome
  endRecorded : Bool

abbrev Interruptible (α : Type) := Calls World (PortalError × Progress) α

def during {α : Type} (progress : Progress) (p : Job α) : Interruptible α := recover p fun error => throw (error, progress)

def takeCapture (deps : PortalReadJobDeps R) (actor : RunActor) (recipeVersionId : Text) (result : PortalJobRunResult)
    (captures : List CaptureOutcome) (summary : PortalJobCaptureSummary) : Interruptible (List CaptureOutcome) := do
  let progress : Progress := ⟨some result, captures, false⟩
  let heldBefore ← during progress (step retries (.known summary.index) (tenantHolds deps actor.orgId summary.sha256))
  let outcome ← during progress
    (step retries (.capture summary.index) (ingestCapture deps actor recipeVersionId summary heldBefore))
  return captures ++ [outcome]

/-- The `try` of the job: from here the start row exists. -/
def followRun (deps : PortalReadJobDeps R) (input : PortalReadJobInput) (actor : RunActor) (recipeVersionId : Text)
    (maxRunMs : Option ℚ) : Interruptible PortalReadJobResult := do
  let nothing : Progress := ⟨none, [], false⟩
  match ← during nothing (step retries .start (startRun deps input actor recipeVersionId)) with
  | .ended result => during ⟨none, [], true⟩ (settle result)
  | .started credentialId state =>
    during nothing (awaitDone retries deps actor.runId (portalReadPollLimit maxRunMs) 1 state)
    let result ← during nothing (step retries .result (fetchResult deps actor))
    if PORTAL_READ_MAX_CAPTURES < result.captures.length then
      throw (.portal .workerContract, ⟨some result, [], false⟩)
    let captures ← result.captures.foldlM (takeCapture retries deps actor recipeVersionId result) []
    let (ended, atStep) := endOf result captures
    let counts := countsOf (some result) captures
    let disabled ← during ⟨some result, captures, false⟩
      (step retries .finish (finishRun deps actor ended atStep counts result.steps credentialId))
    during ⟨some result, captures, true⟩ do
      let documentIds ← requestReads retries captures
      settle { runId := actor.runId, connectionId := actor.connectionId, orgId := actor.orgId, dryRun := actor.dryRun,
               recipeVersionId := some recipeVersionId, ended := ended, atStep := atStep, counts := counts,
               documentIds := documentIds, disabled := disabled }

/-- The `catch`: the row first, then the throw. -/
def recordFailure (deps : PortalReadJobDeps R) (actor : RunActor) (recipeVersionId : Text) :
    PortalError × Progress → Job PortalReadJobResult
  | (error, progress) => do
    match error with
    | .alert result => throw (.alert result)
    | _ =>
      if progress.endRecorded then throw error
      let errorClass := errorClassOf error
      let counts := countsOf progress.result progress.captures
      let stepLog := (progress.result.map (·.steps)).getD []
      step retries .recordFailure (recordRunEnd deps.store
        { runId := actor.runId, orgId := actor.orgId, ended := .error errorClass, atStep := none, counts := counts,
          stepLog := stepLog })
      let documentIds ← requestReads retries progress.captures
      throw (.alert
        { runId := actor.runId, connectionId := actor.connectionId, orgId := actor.orgId, dryRun := actor.dryRun,
          recipeVersionId := some recipeVersionId, ended := .error errorClass, atStep := none, counts := counts,
          documentIds := documentIds, disabled := none })

def assertInput (input : PortalReadJobInput) : Except PortalError Unit :=
  if trim input.connectionId = [] ∨ trim input.orgId = [] ∨ trim input.userId = [] then .error .job
  else match input.recipeVersionId with
    | none => .ok ()
    | some recipeVersionId => if !input.dryRun ∨ trim recipeVersionId = [] then .error .job else .ok ()

/-- One portal read, from an event's ids, over the runtime's steps. -/
def readPortalJob (deps : PortalReadJobDeps R) (input : PortalReadJobInput) : Job PortalReadJobResult := do
  lift (assertInput input)
  let runId ← step retries .mintRunId (ask noAnswer fun t => .ok (deps.randomUUID t))
  let actor : RunActor := ⟨runId, input.orgId, input.connectionId, input.dryRun, input.userId⟩
  match ← step retries .prepare (prepareRun deps input actor) with
  | .ended result => settle result
  | .ready recipeVersionId maxRunMs =>
    recover (followRun retries deps input actor recipeVersionId maxRunMs)
      (recordFailure retries deps actor recipeVersionId)

end Recouple.PortalJob
