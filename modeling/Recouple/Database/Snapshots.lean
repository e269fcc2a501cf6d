import Recouple.Core.Dates
import Recouple.Core.LedgerSnapshot
import Recouple.Core.Numerals
import Recouple.Lib.Guarded
import Recouple.Lib.LinkedLog

/-!
# The kept books: `packages/store-postgres/src/snapshots.ts` and migration 0045

The tables `ledger_snapshots` and `ledger_snapshot_lines`, the one door into them, and what a stored snapshot is
rebuilt from.

| there                                             | here                         |
|---------------------------------------------------|------------------------------|
| `ledger_snapshots` (0045:46), its checks and keys | `SnapshotRow`, `insertHeader` |
| `ledger_snapshot_lines` (0045:110)                | `LineRow`, `LineRow.admitted` |
| `app.record_ledger_snapshot` (0045:222)           | `record_ledger_snapshot`     |
| `recordLedgerSnapshot`, `latestSnapshotSha`, `snapshotContent` | the same        |
| `keepSnapshot` (ledger-job.ts:547)                | `keptContent`                |

The door takes a lock on the connection before it reads the head, writes under it and holds it to the end of its
transaction, so a call is one step; `seq` is the place of a row in the table. The lines' primary key cannot be hit:
their snapshot is new and their numbers are the arrays' places. A uuid is the text it is printed as; `uuid` is what the
cast makes of a text.
-/

namespace Recouple.Snapshots
open Js LedgerSnapshot Guarded

/-! ## Casts -/

/-- `::date` of a text in the shape `YYYY-MM-DD`, as it is printed: there is no year 0. -/
def date (t : Text) : Option Text :=
  if isIsoDay t ∧ Dates.isIsoDate t ∧ t.take 4 ≠ "0000".toList then some t else none

/-- `::bigint` of a text in the shape `String` gives a number. -/
def bigint (t : Text) : Option Int :=
  let negative := decide (t.head? = some '-')
  let digits := if negative then t.tail else t
  if digits = [] ∨ ¬ digits.all Char.isDigit then none
  else
    let n : Int := if negative then -(digitsOf digits : Int) else digitsOf digits
    if -2 ^ 63 ≤ n ∧ n < 2 ^ 63 then some n else none

/-! ## Tables -/

inductive RunOutcome
  | completed
  | not_configured
  | refused
  | failed
deriving DecidableEq

/-- A row of `ledger_sync_runs`, as far as the door reads it. -/
structure SyncRun where
  org_id : Text
  requested_by : Text
  connection_id : Text
  outcome : RunOutcome
  window_from : Text
  window_to : Text

structure SnapshotRow where
  id : Text
  org_id : Text
  connection_id : Text
  run_id : Text
  as_of : Text
  window_from : Text
  window_to : Text
  basis : Option Text
  currency : Option Text
  status : LedgerSnapshotStatus
  refusal_class : Option Text
  total_debit_cents : Option Int
  total_credit_cents : Option Int
  trial_balance_line_count : Nat
  ledger_line_count : Nat
  sha256 : Text
  prev_sha256 : Option Text
  created_by : Text
deriving DecidableEq

inductive LineKind
  | ledger_posting
  | trial_balance
deriving DecidableEq

structure LineRow where
  org_id : Text
  snapshot_id : Text
  kind : LineKind
  line_no : Nat
  account_external_id : Option Text
  account_name : Text
  debit_cents : Int
  credit_cents : Int
  txn_date : Option Text
  txn_type : Option Text
  transaction_external_id : Option Text
  doc_number : Option Text
deriving DecidableEq

structure Db where
  snapshots : List SnapshotRow
  lines : List LineRow
deriving DecidableEq

/-- `btrim(x) <> ''` -/
def notBlank (t : Text) : Bool := t.any fun c => decide (c ≠ ' ')

/-- The checks of a column and of the whole row. -/
def SnapshotRow.admitted (row : SnapshotRow) : Bool :=
  row.basis.all (fun t => notBlank t && decide (t.length ≤ 32)) &&
    row.currency.all (fun t => decide (t.length = 3) && t.all Char.isUpper) &&
    row.refusal_class.all isClassName &&
    isSha256Hex row.sha256 &&
    row.prev_sha256.all isSha256Hex &&
    decide (textLe row.window_from row.window_to) &&
    (match row.status with
      | .complete => row.refusal_class.isNone && row.total_debit_cents.isSome && row.total_credit_cents.isSome
      | .refused =>
        row.refusal_class.isSome && row.total_debit_cents.isNone && row.total_credit_cents.isNone &&
          decide (row.trial_balance_line_count = 0) && decide (row.ledger_line_count = 0)) &&
    decide (row.prev_sha256 ≠ some row.sha256)

/-- The keys two rows may not share: the id, the run, and in one connection the predecessor and the hash. -/
def SnapshotRow.apart (row other : SnapshotRow) : Bool :=
  decide (row.id ≠ other.id) && decide (row.run_id ≠ other.run_id) &&
    (decide (row.org_id ≠ other.org_id) || decide (row.connection_id ≠ other.connection_id) ||
      (decide (row.prev_sha256 ≠ other.prev_sha256) && decide (row.sha256 ≠ other.sha256)))

/-- An id of the ledger: absent, or not blank and at most 128 long. -/
def isExternalId (t : Option Text) : Bool := t.all fun t => notBlank t && decide (t.length ≤ 128)

def LineRow.admitted (row : LineRow) : Bool :=
  isExternalId row.account_external_id && decide (row.account_name.length ≤ 500) &&
    row.txn_type.all (fun t => decide (t.length ≤ 64)) && isExternalId row.transaction_external_id &&
    row.doc_number.all (fun t => decide (t.length ≤ 64)) &&
    match row.kind with
    | .trial_balance =>
      row.txn_date.isNone && row.txn_type.isNone && row.transaction_external_id.isNone && row.doc_number.isNone
    | .ledger_posting => row.txn_date.isSome

/-! ## The door -/

/-- Why `app.record_ledger_snapshot` writes nothing. -/
inductive Refusal
  | noClaims
  | otherTenant
  | otherMember
  | noSuchRun
  | runOfAnotherMember
  | runOfAnotherConnection
  | runNotCompleted
  | notTheRunsWindow
  | refusedWithLines
  | countsDoNotMatch
  | doesNotAddUp
  | notTheHead
  | alreadyKept
  /-- a cast that failed -/
  | cast
  /-- a check or a key of a table -/
  | constraint
deriving DecidableEq

/-- The SQLSTATE of a refusal that says `ledger snapshot blocked`. -/
def Refusal.blocked : Refusal → Option Text
  | .noClaims | .otherTenant | .otherMember | .runOfAnotherMember => some "42501".toList
  | .noSuchRun | .runOfAnotherConnection | .runNotCompleted | .notTheRunsWindow | .refusedWithLines
  | .countsDoNotMatch | .doesNotAddUp | .notTheHead | .alreadyKept => some "23001".toList
  | .cast | .constraint => none

/-- `p_header` -/
structure Header where
  org_id : Text
  connection_id : Text
  run_id : Text
  created_by : Text
  as_of : Text
  window_from : Text
  window_to : Text
  basis : Option Text
  currency : Option Text
  status : LedgerSnapshotStatus
  refusal_class : Option Text
  total_debit_cents : Option Text
  total_credit_cents : Option Text
  trial_balance_line_count : Nat
  ledger_line_count : Nat
  sha256 : Text
  prev_sha256 : Option Text

abbrev Door := EStateM Refusal Db

/-- A cast of a text that may be null. -/
def castOptional {α : Type} (f : Text → Option α) : Option Text → Option (Option α)
  | none => some none
  | some t => (f t).map some

/-- The rows of one connection, in the order of `seq`. -/
def chainRows (db : Db) (org connection : Text) : List SnapshotRow :=
  db.snapshots.filter fun s => s.org_id = org ∧ s.connection_id = connection

/-- The hash of a connection's latest snapshot. -/
def headOf (db : Db) (org connection : Text) : Option Text := (chainRows db org connection).getLast?.map (·.sha256)

/-- The columns both kinds of line have. -/
def lineRow (org id : Text) (kind : LineKind) (n : Nat) (line : SnapshotTrialBalanceLine) : Door LineRow := do
  let debit ← found (bigint line.debit_cents) .cast
  let credit ← found (bigint line.credit_cents) .cast
  return { org_id := org, snapshot_id := id, kind := kind, line_no := n
           account_external_id := line.account_external_id, account_name := line.account_name
           debit_cents := debit, credit_cents := credit
           txn_date := none, txn_type := none, transaction_external_id := none, doc_number := none }

/-- A line of `p_trial_balance`, with its number. -/
def trialRow (org id : Text) (p : SnapshotTrialBalanceLine × Nat) : Door LineRow :=
  lineRow org id .trial_balance p.2 p.1

/-- A line of `p_postings`, with its number. -/
def postingRow (org id : Text) (p : SnapshotPostingLine × Nat) : Door LineRow := do
  let row ← lineRow org id .ledger_posting p.2 p.1.toSnapshotTrialBalanceLine
  let txn_date ← found (date p.1.txn_date) .cast
  return { row with
    txn_date := some txn_date, txn_type := p.1.txn_type
    transaction_external_id := p.1.transaction_external_id, doc_number := p.1.doc_number }

/-- The run is the caller's completed run of this connection. -/
def checkRun (run : SyncRun) (caller_org caller_sub v_connection : Text) : Door Unit := do
  require (run.org_id = caller_org) .noSuchRun
  require (run.requested_by = caller_sub) .runOfAnotherMember
  require (run.connection_id = v_connection) .runOfAnotherConnection
  require (run.outcome = .completed) .runNotCompleted

/-- A refused snapshot has no lines; a complete one as many as it says, which add up to its totals. -/
def checkLines (header : Header) (v_debit v_credit : Option Int) (trial : List SnapshotTrialBalanceLine)
    (postings : List SnapshotPostingLine) : Door Unit :=
  match header.status with
  | .refused => require (trial = [] ∧ postings = []) .refusedWithLines
  | .complete => do
    require (header.trial_balance_line_count = trial.length ∧ header.ledger_line_count = postings.length)
      .countsDoNotMatch
    let debits ← found (trial.mapM fun e => bigint e.debit_cents) .cast
    let credits ← found (trial.mapM fun e => bigint e.credit_cents) .cast
    require (some debits.sum = v_debit ∧ some credits.sum = v_credit) .doesNotAddUp

def insertHeader (row : SnapshotRow) : Door Unit := do
  let db ← get
  require (row.admitted ∧ db.snapshots.all (row.apart ·)) .constraint
  modify fun db => { db with snapshots := db.snapshots ++ [row] }

def insertLines (rows : List LineRow) : Door Unit := do
  require (rows.all (·.admitted)) .constraint
  modify fun db => { db with lines := db.lines ++ rows }

/-- Whose claims are set, the run rows as they stand, and the id the database draws. -/
structure Moment where
  claims : Option (Text × Text)
  runs : Text → Option SyncRun
  newId : Text

section
variable (uuid : Text → Option Text)

def record_ledger_snapshot (m : Moment) (header : Header) (trial : List SnapshotTrialBalanceLine)
    (postings : List SnapshotPostingLine) : Door Text := do
  let claims ← found m.claims .noClaims
  let caller_org ← found (uuid claims.1) .cast
  let caller_sub ← found (uuid claims.2) .cast
  let v_org ← found (uuid header.org_id) .cast
  require (v_org = caller_org) .otherTenant
  let created_by ← found (uuid header.created_by) .cast
  require (created_by = caller_sub) .otherMember
  let v_connection ← found (uuid header.connection_id) .cast
  let v_run ← found (uuid header.run_id) .cast
  let v_debit ← found (castOptional bigint header.total_debit_cents) .cast
  let v_credit ← found (castOptional bigint header.total_credit_cents) .cast
  let run ← found (m.runs v_run) .noSuchRun
  checkRun run caller_org caller_sub v_connection
  let window_from ← found (date header.window_from) .cast
  let window_to ← found (date header.window_to) .cast
  let as_of ← found (date header.as_of) .cast
  require (window_from = run.window_from ∧ window_to = run.window_to ∧ as_of = run.window_to) .notTheRunsWindow
  checkLines header v_debit v_credit trial postings
  let db ← get
  require (header.prev_sha256 = headOf db caller_org v_connection) .notTheHead
  require (∀ s ∈ db.snapshots, s.run_id ≠ v_run) .alreadyKept
  insertHeader
    { id := m.newId, org_id := caller_org, connection_id := v_connection, run_id := v_run
      as_of := run.window_to, window_from := run.window_from, window_to := run.window_to
      basis := header.basis, currency := header.currency, status := header.status
      refusal_class := header.refusal_class, total_debit_cents := v_debit, total_credit_cents := v_credit
      trial_balance_line_count := header.trial_balance_line_count, ledger_line_count := header.ledger_line_count
      sha256 := header.sha256, prev_sha256 := header.prev_sha256, created_by := caller_sub }
  let trialRows ← (trial.zipIdx 1).mapM (trialRow caller_org m.newId)
  insertLines trialRows
  let postingRows ← (postings.zipIdx 1).mapM (postingRow caller_org m.newId)
  insertLines postingRows
  return m.newId

/-! ## The store -/

/-- `TenantContext` -/
structure Tenant where
  orgId : Text
  userId : Text

/-- What `recordLedgerSnapshot` throws: `LedgerSnapshotRefusedError` with its code, or what the database threw. -/
inductive RecordError
  | refused (code : Text)
  | database (refusal : Refusal)
deriving DecidableEq

def recordError (refusal : Refusal) : RecordError :=
  match refusal.blocked with
  | some code => .refused code
  | none => .database refusal

/-- `recordLedgerSnapshot`, one transaction. -/
def recordLedgerSnapshot (tenant : Tenant) (runs : Text → Option SyncRun) (newId : Text)
    (content : LedgerSnapshotContent) (sha256 : Text) (prevSha256 : Option Text) (db : Db) :
    Except RecordError (Text × Db) :=
  if content.org_id ≠ tenant.orgId then .error (.refused "client".toList)
  else
    let header : Header :=
      { org_id := content.org_id, connection_id := content.connection_id, run_id := content.run_id
        created_by := tenant.userId
        as_of := content.as_of, window_from := content.window_from, window_to := content.window_to
        basis := content.basis, currency := content.currency, status := content.status
        refusal_class := content.refusal_class
        total_debit_cents := content.total_debit_cents, total_credit_cents := content.total_credit_cents
        trial_balance_line_count := content.trial_balance.length
        ledger_line_count := content.ledger_postings.length, sha256 := sha256, prev_sha256 := prevSha256 }
    let m : Moment := { claims := some (tenant.orgId, tenant.userId), runs := runs, newId := newId }
    match record_ledger_snapshot uuid m header content.trial_balance content.ledger_postings db with
    | .ok id db' => .ok (id, db')
    | .error refusal _ => .error (recordError refusal)

end

/-- `latestSnapshotSha`: a tenant sees its own rows. -/
def latestSnapshotSha (org connection : Text) (db : Db) : Option Text := headOf db org connection

/-- `order by kind, line_no` -/
def lineKey (row : LineRow) : Nat ×ₗ Nat :=
  toLex (match row.kind with | .ledger_posting => 0 | .trial_balance => 1, row.line_no)

def lineLe (a b : LineRow) : Prop := lineKey a ≤ lineKey b

instance : DecidableRel lineLe := fun a b => inferInstanceAs (Decidable (lineKey a ≤ lineKey b))

def trialOf (row : LineRow) : SnapshotTrialBalanceLine where
  account_external_id := row.account_external_id
  account_name := row.account_name
  debit_cents := decimalInt row.debit_cents
  credit_cents := decimalInt row.credit_cents

inductive ReadError
  /-- `a stored posting has no txn_date` -/
  | noTxnDate
deriving DecidableEq

def postingOf (row : LineRow) : Except ReadError SnapshotPostingLine :=
  match row.txn_date with
  | none => .error .noTxnDate
  | some txn_date => .ok
    { toSnapshotTrialBalanceLine := trialOf row, txn_date := txn_date, txn_type := row.txn_type
      transaction_external_id := row.transaction_external_id, doc_number := row.doc_number }

/-- What `snapshotContent` returns of a snapshot. -/
structure Stored where
  content : LedgerSnapshotContent
  sha256 : Text
  prevSha256 : Option Text
deriving DecidableEq

/-- A snapshot's rows of lines, as the tenant reads them. -/
def linesOf (db : Db) (org snapshotId : Text) : List LineRow :=
  (db.lines.filter fun l => l.org_id = org ∧ l.snapshot_id = snapshotId).insertionSort lineLe

/-- The content of a header row and its lines. -/
def contentOf (row : SnapshotRow) (trial : List SnapshotTrialBalanceLine) (postings : List SnapshotPostingLine) :
    LedgerSnapshotContent where
  org_id := row.org_id
  connection_id := row.connection_id
  run_id := row.run_id
  as_of := row.as_of
  window_from := row.window_from
  window_to := row.window_to
  basis := row.basis
  currency := row.currency
  status := row.status
  refusal_class := row.refusal_class
  total_debit_cents := row.total_debit_cents.map decimalInt
  total_credit_cents := row.total_credit_cents.map decimalInt
  trial_balance := trial
  ledger_postings := postings

def snapshotContent (org snapshotId : Text) (db : Db) : Except ReadError (Option Stored) :=
  match db.snapshots.find? fun s => s.org_id = org ∧ s.id = snapshotId with
  | none => .ok none
  | some row =>
    let lines := linesOf db org snapshotId
    let trial := (lines.filter (·.kind = .trial_balance)).map trialOf
    ((lines.filter (·.kind = .ledger_posting)).mapM postingOf).map fun postings =>
      some { content := contentOf row trial postings, sha256 := row.sha256, prevSha256 := row.prev_sha256 }

/-! ## The job -/

/-- The content `keepSnapshot` of `packages/pipeline/src/ledger-job.ts` (547) keeps. `read` is the trial balance and
the general ledger, or the name of the error in the way of them, if it was an `Error`. -/
def keptContent (orgId connectionId runId : Text) (window : Window)
    (read : Except (Option Text) (TrialBalance × GeneralLedger)) : Except Text LedgerSnapshotContent :=
  let build (read : SnapshotRead) :=
    buildLedgerSnapshot { orgId := orgId, connectionId := connectionId, runId := runId, window := window, read := read }
  let complete := read.bind fun books =>
    (build (.complete books.1 books.2)).mapError fun _ => some "LedgerSnapshotError".toList
  match complete with
  | .ok content => .ok content
  | .error name => build (.refused ((name.filter isClassName).getD "UnnamedError".toList))

/-- What is kept is a snapshot of the run, whatever was in the way of the books. -/
theorem built_of_keptContent {orgId connectionId runId : Text} {window : Window}
    {read : Except (Option Text) (TrialBalance × GeneralLedger)} {content : LedgerSnapshotContent}
    (h : keptContent orgId connectionId runId window read = .ok content) :
    ∃ books, buildLedgerSnapshot { orgId, connectionId, runId, window, read := books } = .ok content := by
  unfold keptContent at h
  dsimp only at h
  split at h
  · rename_i built hbuilt
    obtain rfl := Except.ok.inj h
    cases read with
    | error name => cases hbuilt
    | ok books =>
      refine ⟨.complete books.1 books.2, ?_⟩
      cases hbooks : buildLedgerSnapshot
          { orgId, connectionId, runId, window, read := .complete books.1 books.2 } with
      | error message =>
        rw [Except.bind, hbooks] at hbuilt
        cases hbuilt
      | ok content =>
        rw [Except.bind, hbooks] at hbuilt
        exact congrArg Except.ok (Except.ok.inj hbuilt)
  · exact ⟨_, h⟩

end Recouple.Snapshots
