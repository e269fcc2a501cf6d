import Recouple.Lib.Threads
import Recouple.Pipeline.PortalRead

/-!
# Everyone at one portal connection: `packages/store-postgres/src/portal.ts` (882-1101, 1140-1270)

| here | there |
| --- | --- |
| `Rows` | the connection's row and its row lock, `portal_credentials`, the disables in `audit_log`, and what runs did |
| `Rows.latest`, `Rows.credentialHold` | `latestCredentialId` (2397), `credentialHold` |
| `underLock`, `Party.lock` | `withTenant` and `lockConnection`: `for update`, not while a credential is being stored |
| `sealAndStoreCredential`, `disableConnection`, `enableConnection` | the methods, one statement a step |
| `readPortalJob` | the job of `packages/pipeline/src/portal-job.ts` (770-1330), with its calls on these rows |

Any number of parties act beside each other (`Lib/Threads`); a statement may fail, and a commit may lose its answer.
The tenant of each is the connection's, and `tenant_read` (migration 0038, 1028) shows it the connection always. What
a call answers that touches none of these rows is the environment's choice (`elsewhere`). `Event`s are what was said
to the worker, by it, and of it in `portal_read_runs`, in the order of their commits; `began` marks where the `start`
step of a run begins.
-/

namespace Recouple.PortalConnection
open Js Thread PortalJob

/-! ## The rows -/

structure CredentialRow where
  id : Nat
  seq : Nat

/-- `PORTAL_DISABLE_REASONS`. -/
inductive PortalDisableReason | credential_rejected | credential_removed | turned_off
deriving DecidableEq

def CREDENTIAL_DISABLES : List PortalDisableReason := [.credential_rejected, .credential_removed]

/-- The payload of a `portal_connection.disabled` row. -/
structure DisableRow where
  reason : PortalDisableReason
  credentialId : Option Nat
  alreadyOff : Bool
deriving DecidableEq

structure OutcomeRow where
  ended : PortalJobRunEnd
  atStep : Option Text
  counts : PortalJobRunCounts
  stepLog : List PortalJobStepLogEntry
deriving DecidableEq

section
variable {ι : Type}

inductive Event (ι : Type)
  | began (run : ι)
  | sent (run : ι) (credentialId : Nat)
  | fetched (run : ι) (ended : PortalWorkerRunEnd)
  | ended (run : ι) (row : OutcomeRow)

structure Rows (ι : Type) where
  enabled : Bool
  credentials : List CredentialRow
  nextSeq : Nat
  disables : List DisableRow
  /-- Who holds the connection's row `for update`. -/
  holder : Option ι
  /-- Who holds it `for key share`, with a credential not committed. -/
  sharers : Set ι
  log : List (Event ι)

def Rows.note (s : Rows ι) (e : Event ι) : Rows ι := { s with log := s.log ++ [e] }

def Rows.ids (s : Rows ι) : List Nat := s.credentials.map (·.id)

/-- `order by seq desc limit 1`. -/
def Rows.latest (s : Rows ι) : Option Nat := (s.credentials.argmax (·.seq)).map (·.id)

/-- The latest hold of these reasons that names the credential, or none. -/
def Rows.credentialHold (s : Rows ι) (credentialId : Option Nat) (reasons : List PortalDisableReason) :
    Option PortalDisableReason :=
  (s.disables.reverse.find? fun d => d.reason ∈ reasons ∧ d.credentialId = credentialId).map (·.reason)

/-! ## Statements -/

abbrev Party (ι α : Type) := Thread (Rows ι) PortalError α

/-- A call that touches none of these rows answers as it will, or fails. -/
def elsewhere {α : Type} : Party ι α := attempt fun s _ s' => s' = s

def read {α : Type} (f : Rows ι → α) : Party ι α := attempt fun s r s' => s' = s ∧ ∀ a, r = .ok a → a = f s

/-- What a transaction writes when it commits. -/
structure Writes where
  enabled : Option Bool
  disables : List DisableRow

def Rows.commit (s : Rows ι) (writes : Writes) : Rows ι :=
  { s with enabled := writes.enabled.getD s.enabled, disables := s.disables ++ writes.disables, holder := none }

def Party.lock (party : ι) : Party ι Bool :=
  attempt fun s r s' =>
    r = .ok s.enabled ∧ s.holder = none ∧ s.sharers = ∅ ∧ s' = { s with holder := some party } ∨
    (∃ e, r = .error e) ∧ s' = s

def Party.rollback (party : ι) : Party ι Unit :=
  atomic fun s _ s' => s.holder = some party ∧ s' = { s with holder := none }

def Party.commit {α : Type} (party : ι) (answer : α) (writes : Writes) : Party ι α :=
  attempt fun s r s' => s.holder = some party ∧
    (r = .ok answer ∧ s' = s.commit writes ∨
      (∃ e, r = .error e) ∧ (s' = s.commit writes ∨ s' = { s with holder := none }))

/-- A transaction over the connection's row: it is seen, its caller is an owner, and it is locked; then the work. -/
def underLock {α : Type} (party : ι) (work : Bool → Party ι (α × Writes)) : Party ι α := do
  let _ : Unit ← elsewhere
  let _ : Unit ← elsewhere
  let enabled ← Party.lock party
  let done ← recover (work enabled) fun e => do
    Party.rollback party
    throw e
  Party.commit party done.1 done.2

/-! ## What an owner does -/

/-- The row, its number drawn when it is inserted. -/
def insertCredential : Party ι CredentialRow :=
  attempt fun s r s' =>
    (∃ row, r = .ok row ∧ s.nextSeq ≤ row.seq ∧ s' = { s with nextSeq := row.seq + 1 }) ∨ (∃ e, r = .error e) ∧ s' = s

/-- The foreign key holds the connection's row until the transaction ends. -/
def shareConnection (party : ι) : Party ι Unit :=
  attempt fun s r s' =>
    r = .ok () ∧ s.holder = none ∧ s' = { s with sharers := insert party s.sharers } ∨ (∃ e, r = .error e) ∧ s' = s

def unshareConnection (party : ι) : Party ι Unit :=
  atomic fun s _ s' => s' = { s with sharers := s.sharers \ {party} }

def commitCredential (party : ι) (row : CredentialRow) : Party ι Unit :=
  attempt fun s r s' =>
    row.id ∉ s.ids ∧ s' = { s with credentials := s.credentials ++ [row], sharers := s.sharers \ {party} } ∨
    (∃ e, r = .error e) ∧ s' = { s with sharers := s.sharers \ {party} }

/-- Sealed and stored; the connection stays as it is. -/
def sealAndStoreCredential (party : ι) : Party ι Unit := do
  -- the binding, then the seal
  let _ : Unit ← elsewhere
  let _ : Unit ← elsewhere
  let row ← insertCredential
  shareConnection party
  -- its audit row
  recover elsewhere fun e => do
    unshareConnection party
    throw e
  commitCredential party row

/-- Only a rejection names the credential it is about. -/
inductive DisablePortalConnectionInput
  | credential_rejected (credentialId : Nat)
  | credential_removed
  | turned_off

/-- Turned off, or a hold recorded of a connection that is off. -/
def turnOff (enabled : Bool) (reason : PortalDisableReason) (credentialId : Option Nat) :
    Party ι (PortalJobDisableAnswer × Writes) := do
  if enabled then
    let _ : Unit ← elsewhere
    return (.disabled, ⟨some false, [⟨reason, credentialId, false⟩]⟩)
  else if reason = .turned_off then
    return (.already_off, ⟨none, []⟩)
  else
    let hold ← read (·.credentialHold credentialId [reason])
    if hold.isSome then return (.already_off, ⟨none, []⟩)
    let _ : Unit ← elsewhere
    return (.already_off, ⟨none, [⟨reason, credentialId, true⟩]⟩)

def disableConnection (party : ι) (input : DisablePortalConnectionInput) : Party ι PortalJobDisableAnswer :=
  underLock party fun enabled => do
    let latest ← read Rows.latest
    match input with
    | .credential_rejected refused =>
      let named ← read fun s => decide (refused ∈ s.ids)
      if !named then throw .store
      if latest ≠ some refused then return (.newer_credential, ⟨none, []⟩)
      turnOff enabled .credential_rejected (some refused)
    | .credential_removed => turnOff enabled .credential_removed latest
    | .turned_off => turnOff enabled .turned_off none

inductive PortalEnableOutcome | enabled | already_on

def enableConnection (party : ι) : Party ι PortalEnableOutcome :=
  underLock party fun enabled => do
    if enabled then return (.already_on, ⟨none, []⟩)
    let latest ← read Rows.latest
    let held ← read (·.credentialHold latest CREDENTIAL_DISABLES)
    if held.isSome then throw .store
    let _ : Unit ← elsewhere
    return (.enabled, ⟨some true, []⟩)

/-! ## What a read asks -/

def note (e : Event ι) : Party ι Unit := atomic fun s _ s' => s' = s.note e

/-- A repeat is a replay, and any other second outcome is refused. -/
def recordRunEnd (run : ι) (row : OutcomeRow) : Party ι Unit :=
  attempt fun s r s' =>
    (∀ row', .ended run row' ∉ s.log) ∧ s' = s.note (.ended run row) ∨
    r = .ok () ∧ .ended run row ∈ s.log ∧ s' = s ∨ (∃ e, r = .error e) ∧ s' = s

/-- Whether it is enabled, where the input is its own. -/
def visibleConnection : Party ι Bool := read (·.enabled)

def permissionRefusal (enabled : Bool) : Party ι (Option PortalJobRunEnd) := do
  if !enabled then return some (refused .connectionDisabled)
  if !(← (elsewhere : Party ι Bool)) then return some (refused .memberMayNotWrite)
  if !(← (elsewhere : Party ι Bool)) then return some (refused .memberNotOwner)
  return none

/-- The end found, or the credential to send. -/
def decideRun : Party ι (PortalJobRunEnd ⊕ Nat) := do
  if ← (elsewhere : Party ι Bool) then return .inl (refused .recipeRejected)
  if ← (elsewhere : Party ι Bool) then return .inl (refused .termsNotAllowing)
  if ← (elsewhere : Party ι Bool) then return .inl (notConfigured .workerNotConfigured)
  match ← read Rows.latest with
  | none => return .inl (notConfigured .credentialNotConfigured)
  | some credentialId =>
    if ← (elsewhere : Party ι Bool) then return .inl (.needs_attention (.worker .binding_mismatch))
    return .inr credentialId

def endBeforeWorker (run : ι) (ended : PortalJobRunEnd) (writeStart : Bool) : Party ι Unit := do
  if writeStart then elsewhere
  recordRunEnd run ⟨ended, none, NO_COUNTS, []⟩

inductive Prepared
  | ended
  | ready (maxRunMs : Option ℚ)

def prepareRun (run : ι) : Party ι Prepared := do
  match ← permissionRefusal (← visibleConnection) with
  | some refusal =>
    endBeforeWorker run refusal true
    return .ended
  | none =>
    -- the version, and the portal it is of
    match ← (elsewhere : Party ι (Option (Option ℚ))) with
    | none =>
      endBeforeWorker run (notConfigured .recipeNotConfigured) true
      return .ended
    | some maxRunMs =>
      match ← decideRun with
      | .inl ended =>
        endBeforeWorker run ended true
        return .ended
      | .inr _ =>
        -- the start row
        let _ : Unit ← elsewhere
        return .ready maxRunMs

inductive Started
  | ended
  | started (credentialId : Nat) (state : RunState)

/-- The run as `start` finds it on the worker already, with the latest credential. -/
def onWorkerAlready : Party ι (Option Started) := do
  match ← (elsewhere : Party ι (Option RunState)) with
  | none => return none
  | some state =>
    match ← read Rows.latest with
    | none => throw .job
    | some credentialId => return some (.started credentialId state)

def endUnlessStarted (run : ι) (ended : PortalJobRunEnd) : Party ι Started := do
  match ← onWorkerAlready with
  | some started => return started
  | none =>
    endBeforeWorker run ended false
    return .ended

/-- The worker gets what it is sent, or the request fails. -/
def sendToWorker (run : ι) (credentialId : Nat) : Party ι RunState :=
  attempt fun s r s' => s' = s.note (.sent run credentialId) ∨ (∃ e, r = .error e) ∧ s' = s

def startRun (run : ι) : Party ι Started := do
  match ← permissionRefusal (← visibleConnection) with
  | some refusal => endUnlessStarted run refusal
  | none =>
    -- the version its start row names
    let _ : Unit ← elsewhere
    match ← decideRun with
    | .inl ended => endUnlessStarted run ended
    | .inr credentialId =>
      let state ← sendToWorker run credentialId
      return .started credentialId state

def fetchResult (run : ι) : Party ι PortalJobRunResult :=
  attempt fun s r s' =>
    (∃ result, r = .ok result ∧ s' = s.note (.fetched run result.ended)) ∨ (∃ e, r = .error e) ∧ s' = s

/-- A refused sign-in turns the connection off first; then the outcome row. -/
def finishRun (run : ι) (row : OutcomeRow) (credentialId : Nat) : Party ι Unit := do
  if row.ended = .needs_attention (.worker .credential_rejected) then
    let _ ← disableConnection run (.credential_rejected credentialId)
  recordRunEnd run row

/-! ## The job -/

variable (retries : Nat)

def step {α : Type} (id : StepId) (work : Party ι α) : Party ι α :=
  recover
    (retry isSettled (do
      let answer ← work
      let _ : Unit ← elsewhere
      return answer) retries)
    fun error => throw (.step id (errorClassOf error))

def awaitDone : Nat → Nat → RunState → Party ι Unit
  | _, _, .done => return ()
  | 0, _, .running => throw (.portal .runTimedOut)
  | left + 1, poll, .running => do
    let state ← step retries (.poll poll) elsewhere
    awaitDone left (poll + 1) state

def requestReads (captures : List CaptureOutcome) : Party ι Unit := do
  let clean := captures.any fun
    | .stored _ _ _ _ clean => clean
    | _ => false
  if clean then step retries .requestReads elsewhere

abbrev Interruptible (ι α : Type) := Thread (Rows ι) (PortalError × Progress) α

def during {α : Type} (progress : Progress) (p : Party ι α) : Interruptible ι α :=
  recover p fun error => throw (error, progress)

def takeCapture (result : PortalJobRunResult) (captures : List CaptureOutcome) (summary : PortalJobCaptureSummary) :
    Interruptible ι (List CaptureOutcome) := do
  let progress : Progress := ⟨some result, captures, false⟩
  let _ : Bool ← during progress (step retries (.known summary.index) elsewhere)
  let outcome ← during progress (step retries (.capture summary.index) elsewhere)
  return captures ++ [outcome]

/-- The `try` of the job: from here the start row exists. -/
def followRun (run : ι) (maxRunMs : Option ℚ) : Interruptible ι Unit := do
  let nothing : Progress := ⟨none, [], false⟩
  during nothing (note (.began run))
  match ← during nothing (step retries .start (startRun run)) with
  | .ended => return ()
  | .started credentialId state =>
    during nothing (awaitDone retries (portalReadPollLimit maxRunMs) 1 state)
    let result ← during nothing (step retries .result (fetchResult run))
    if PORTAL_READ_MAX_CAPTURES < result.captures.length then
      throw (.portal .workerContract, ⟨some result, [], false⟩)
    let captures ← result.captures.foldlM (takeCapture retries result) []
    let (ended, atStep) := endOf result captures
    let row : OutcomeRow := ⟨ended, atStep, countsOf (some result) captures, result.steps⟩
    during ⟨some result, captures, false⟩ (step retries .finish (finishRun run row credentialId))
    during ⟨some result, captures, true⟩ (requestReads retries captures)

/-- The `catch`: the row first, then the throw. -/
def recordFailure (run : ι) (stopped : PortalError × Progress) : Party ι Unit := do
  if stopped.2.endRecorded then throw stopped.1
  step retries .recordFailure (recordRunEnd run
    { ended := .error (errorClassOf stopped.1), atStep := none,
      counts := countsOf stopped.2.result stopped.2.captures,
      stepLog := (stopped.2.result.map (·.steps)).getD [] })
  requestReads retries stopped.2.captures
  throw stopped.1

/-- One portal read, from a run id of its own. -/
def readPortalJob (run : ι) (input : PortalReadJobInput) : Party ι Unit := do
  let _ : Unit ← .done (assertInput input)
  let _ : Unit ← step retries .mintRunId elsewhere
  match ← step retries .prepare (prepareRun run) with
  | .ended => return ()
  | .ready maxRunMs => recover (followRun retries run maxRunMs) (recordFailure retries run)

/-! ## Everyone -/

/-- What a party does, once: it may be any number of them. -/
inductive Errand
  | read (input : PortalReadJobInput)
  | enterCredential
  | disable (input : DisablePortalConnectionInput)
  | enable

def Errand.thread (party : ι) : Errand → Party ι Unit
  | .read input => readPortalJob retries party input
  | .enterCredential => sealAndStoreCredential party
  | .disable input => do
    let _ ← disableConnection party input
  | .enable => do
    let _ ← enableConnection party

/-- The connection as it was created, before anyone does anything. -/
def created : Rows ι := ⟨true, [], 0, [], none, ∅, []⟩

def start (errands : ι → Errand) : Config ι (Rows ι) PortalError Unit :=
  ⟨created, fun party => (errands party).thread retries party⟩

end

end Recouple.PortalConnection
