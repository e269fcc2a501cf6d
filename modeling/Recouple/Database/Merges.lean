import Recouple.Core.StateMachine
import Recouple.Lib.Rows

/-!
# Merging, undoing and removing cases: 0032 (95-583), 0044 (49-97), `workflow.ts` 2120-2315

The tables these statements read and write, and what the triggers admit. The rows are one tenant's: every
policy confines a session to the rows of its tenant, and every foreign key between cases to one tenant. A
statement is admitted whole or not at all, and the row locks put statements on one case one after another.

Ids and times are numbers; an event's id is its place in the table. Of an event's payload only `of` is read,
and an `of` that is no case's id names none.
-/

namespace Recouple.Database.Merges
open Pipeline (CaseState UploadSource)

/-- The nine states before a filing, which `state_before`, `merge_refusal` and `removal_is_guarded` list: those of
`MERGEABLE_STATES`. -/
def beforeFiling : List CaseState := StateMachine.MERGEABLE_STATES

/-! ## Tables -/

structure Deduction where
  id : Nat
  state : CaseState
  deduction_amount_cents : Int
  created_at : Nat
deriving DecidableEq

inductive EventType
  | duplicate_confirmed | duplicate_dismissed | duplicate_verdict_withdrawn
  | removed | merged_into | absorbed | merge_undone
  | other (name : Js.Text)
deriving DecidableEq

structure Event where
  id : Nat
  deduction_id : Nat
  event_type : EventType
  of : Option Nat
deriving DecidableEq

inductive Action
  | merge | unmerge
deriving DecidableEq

/-- A row of `deduction_merges`. -/
structure Merge where
  id : Nat
  merged_deduction_id : Nat
  surviving_deduction_id : Nat
  action : Action
  state_before : Option CaseState
  amount_cents : Option Int
  verdict_event_id : Option Nat
  recorded_by : Nat
  created_at : Nat
deriving DecidableEq

structure Submission where
  id : Nat
  deduction_id : Nat
  created_at : Nat
deriving DecidableEq

/-- A row of `declined_candidates`. -/
structure Decline where
  deduction_id : Option Nat
  discovered_from : UploadSource
  estimated_recoverable_cents : Int
  decided_at : Nat
deriving DecidableEq

/-- A row of `documents`, with the sources of the upload it came in and of the arrival recorded for it. -/
structure Document where
  id : Nat
  created_at : Nat
  observed_from : Option UploadSource
  asserted_from : Option UploadSource
deriving DecidableEq

/-- A row of `deduction_documents`. -/
structure DocumentLink where
  deduction_id : Nat
  document_id : Nat
  role : Pipeline.LinkRole
deriving DecidableEq

structure Db where
  deductions : List Deduction
  deduction_events : List Event
  deduction_merges : List Merge
  decisions : List Nat
  submissions : List Submission
  writeoffs : List Nat
  writebacks : List Nat
  declined_candidates : List Decline
  documents : List Document
  deduction_documents : List DocumentLink

def Db.empty : Db := ⟨[], [], [], [], [], [], [], [], [], []⟩

def Db.find (s : Db) (id : Nat) : Option Deduction := Rows.lookup Deduction.id s.deductions id

def Db.stateOf (s : Db) (id : Nat) : Option CaseState := (s.find id).map (·.state)

/-- Whose session it is, and what their membership allows. -/
structure Session where
  user : Nat
  may_write : Bool
  owner_or_approver : Bool

inductive Refusal
  | not_visible | not_confirmed | already_merged | merged_before | both_filed | absorbs_another
  | not_mergeable_state | amounts_disagree
  | not_the_caller | not_merged | wrong_survivor | stale_state | stale_verdict
  | unbacked_move
  | irreversible | not_owner_or_approver | not_removable_state | survivor_of_merge | no_event
  | merged_away
  | constraint | not_a_writer
deriving DecidableEq

/-! ## What the triggers read -/

/-- The two rows name the same pair, whichever way round. -/
def SamePair (m m' : Merge) : Prop :=
  (m.merged_deduction_id = m'.merged_deduction_id ∧ m.surviving_deduction_id = m'.surviving_deduction_id) ∨
    (m.merged_deduction_id = m'.surviving_deduction_id ∧ m.surviving_deduction_id = m'.merged_deduction_id)

instance (m m' : Merge) : Decidable (SamePair m m') := inferInstanceAs (Decidable (_ ∨ _))

/-- The undo row is of this merge. -/
def Undoes (u m : Merge) : Prop :=
  u.action = .unmerge ∧ u.merged_deduction_id = m.merged_deduction_id ∧
    u.surviving_deduction_id = m.surviving_deduction_id

instance (u m : Merge) : Decidable (Undoes u m) := inferInstanceAs (Decidable (_ ∧ _))

/-- `deduction_merges_current`: merges without an undo. -/
def current (merges : List Merge) : List Merge :=
  merges.filter fun m => m.action = .merge ∧ ∀ u ∈ merges, ¬ Undoes u m

section
variable (s : Db)

/-- The latest verdict event of an unordered pair. -/
def pairEvent (a b : Nat) : Option Event :=
  s.deduction_events.reverse.find? fun e =>
    e.event_type ∈ [.duplicate_confirmed, .duplicate_dismissed, .duplicate_verdict_withdrawn] ∧
      ((e.deduction_id = a ∧ e.of = some b) ∨ (e.deduction_id = b ∧ e.of = some a))

/-- The row of `duplicate_pair_verdicts` read for two cases: the first with both ends among them. -/
def standingEvent (a b : Nat) : Option Event :=
  (pairEvent s (min a b) (min a b)).or ((pairEvent s (min a b) (max a b)).or (pairEvent s (max a b) (max a b)))

/-- `app.merge_work_rank`: 2 filed, 1 decided or declined, 0 neither. -/
def mergeWorkRank (id : Nat) : Nat :=
  if (∃ f ∈ s.submissions, f.deduction_id = id) ∨ id ∈ s.writeoffs ∨ id ∈ s.writebacks then 2
  else if id ∈ s.decisions ∨ ∃ k ∈ s.declined_candidates, k.deduction_id = some id then 1
  else 0

/-- The first of two cases by work done, then age, then id. -/
def Outranks (d e : Deduction) : Prop :=
  mergeWorkRank s e.id < mergeWorkRank s d.id ∨ (mergeWorkRank s e.id = mergeWorkRank s d.id ∧
    (d.created_at < e.created_at ∨ (d.created_at = e.created_at ∧ d.id ≤ e.id)))

instance (d e : Deduction) : Decidable (Outranks s d e) := inferInstanceAs (Decidable (_ ∨ _))

/-- `app.merge_survivor` -/
def mergeSurvivor (a b : Nat) : Option Nat :=
  if a = b then none
  else
    match s.find a, s.find b with
    | some d, some e =>
      if mergeWorkRank s d.id = 2 ∧ mergeWorkRank s e.id = 2 then none
      else some (if Outranks s d e then d.id else e.id)
    | _, _ => none

/-- `app.merge_refusal`: why two cases cannot be merged. -/
def mergeRefusal (a b : Nat) : Option Refusal :=
  if a = b ∨ s.find a = none ∨ s.find b = none then some .not_visible
  else if (standingEvent s a b).map (·.event_type) ≠ some .duplicate_confirmed then some .not_confirmed
  else if ∃ c ∈ current s.deduction_merges, c.merged_deduction_id = a ∨ c.merged_deduction_id = b then
    some .already_merged
  else if ∃ m ∈ s.deduction_merges, m.action = .merge ∧
      ((m.merged_deduction_id = a ∧ m.surviving_deduction_id = b) ∨
        (m.merged_deduction_id = b ∧ m.surviving_deduction_id = a)) then some .merged_before
  else
    match mergeSurvivor s a b with
    | none => some .both_filed
    | some survivor =>
      let loser := if survivor = a then b else a
      if ∃ c ∈ current s.deduction_merges, c.surviving_deduction_id = loser then some .absorbs_another
      else if ∀ st ∈ s.stateOf loser, st ∉ beforeFiling then some .not_mergeable_state
      else if (s.find a).map (·.deduction_amount_cents) ≠ (s.find b).map (·.deduction_amount_cents) then
        some .amounts_disagree
      else none

/-- `app.check_deduction_merge`, before a row lands. -/
def checkDeductionMerge (session : Session) (new : Merge) : Except Refusal Unit :=
  if new.recorded_by ≠ session.user then .error .not_the_caller
  else
    match new.action with
    | .unmerge =>
      if ∃ c ∈ current s.deduction_merges, c.merged_deduction_id = new.merged_deduction_id ∧
          c.surviving_deduction_id = new.surviving_deduction_id then .ok ()
      else .error .not_merged
    | .merge =>
      match mergeRefusal s new.merged_deduction_id new.surviving_deduction_id with
      | some reason => .error reason
      | none =>
        if mergeSurvivor s new.merged_deduction_id new.surviving_deduction_id ≠ some new.surviving_deduction_id then
          .error .wrong_survivor
        else if new.state_before ≠ s.stateOf new.merged_deduction_id then .error .stale_state
        else if new.amount_cents ≠ (s.find new.merged_deduction_id).map (·.deduction_amount_cents) then
          .error .amounts_disagree
        else if new.verdict_event_id ≠
            (standingEvent s new.merged_deduction_id new.surviving_deduction_id).map (·.id) then .error .stale_verdict
        else .ok ()

/-- The state the latest undo of a case goes back to. -/
def restoredState (id : Nat) : Option CaseState :=
  let undos := s.deduction_merges.flatMap fun u =>
    (s.deduction_merges.filter fun m => m.action = .merge ∧ u.merged_deduction_id = id ∧ Undoes u m).map fun m => (u, m)
  (undos.argmax fun row => toLex (row.1.created_at, row.1.id)).bind (·.2.state_before)

/-- `app.merged_state_is_a_projection`, before a case's state is updated. -/
def mergedStateIsAProjection (id : Nat) (old new : CaseState) : Except Refusal Unit :=
  if new = old then .ok ()
  else if new = .merged then
    if ∃ c ∈ current s.deduction_merges, c.merged_deduction_id = id ∧ c.state_before = some old then .ok ()
    else .error .unbacked_move
  else if old = .merged then
    if ∃ c ∈ current s.deduction_merges, c.merged_deduction_id = id then .error .unbacked_move
    else if restoredState s id ≠ some new then .error .unbacked_move
    else .ok ()
  else .ok ()

/-- `app.removal_is_guarded`, before a case's state is updated. -/
def removalIsGuarded (session : Session) (id : Nat) (old new : CaseState) : Except Refusal Unit :=
  if new = old then .ok ()
  else if old = .removed then .error .irreversible
  else if new = .removed then
    if session.owner_or_approver = false then .error .not_owner_or_approver
    else if old ∉ beforeFiling then .error .not_removable_state
    else if ∃ c ∈ current s.deduction_merges, c.surviving_deduction_id = id then .error .survivor_of_merge
    else if ¬ ∃ e ∈ s.deduction_events, e.deduction_id = id ∧ e.event_type = .removed then .error .no_event
    else .ok ()
  else .ok ()

end

/-! ## Statements -/

def Db.withState (s : Db) (id : Nat) (state : CaseState) : Db :=
  { s with deductions := Rows.modify Deduction.id s.deductions id fun d => { d with state := state } }

def Db.withEvent (s : Db) (deduction_id : Nat) (event_type : EventType) (of : Option Nat) : Db :=
  { s with deduction_events :=
      s.deduction_events ++ [⟨s.deduction_events.length, deduction_id, event_type, of⟩] }

/-- `update deductions set state = new where id = id`, with the triggers in the order of their names. -/
def updateState (session : Session) (s : Db) (id : Nat) (new : CaseState) : Except Refusal Db :=
  match s.stateOf id with
  | none => .ok s
  | some old => do
    mergedStateIsAProjection s id old new
    removalIsGuarded s session id old new
    .ok (s.withState id new)

/-- `app.project_deduction_merge`, after a row has landed. -/
def projectDeductionMerge (session : Session) (s : Db) (new : Merge) : Except Refusal Db :=
  match new.action with
  | .merge => do
    let s ← updateState session s new.merged_deduction_id .merged
    .ok ((s.withEvent new.merged_deduction_id .merged_into none).withEvent new.surviving_deduction_id .absorbed none)
  | .unmerge =>
    match (s.deduction_merges.find? fun m => m.action = .merge ∧ Undoes new m).bind (·.state_before) with
    | none => .error .constraint
    | some state_before => do
      let s ← updateState session s new.merged_deduction_id state_before
      .ok ((((s.withEvent new.merged_deduction_id .merge_undone none).withEvent
        new.surviving_deduction_id .merge_undone none).withEvent
        new.merged_deduction_id .duplicate_verdict_withdrawn (some new.surviving_deduction_id)).withEvent
        new.surviving_deduction_id .duplicate_verdict_withdrawn (some new.merged_deduction_id))

/-- The checks on the columns of one row. -/
def Merge.Shaped (m : Merge) : Prop :=
  m.merged_deduction_id ≠ m.surviving_deduction_id ∧ (∀ st ∈ m.state_before, st ∈ beforeFiling) ∧
    (∀ c ∈ m.amount_cents, 0 < c) ∧
    match m.action with
    | .merge => m.state_before.isSome ∧ m.amount_cents.isSome ∧ m.verdict_event_id.isSome
    | .unmerge => m.state_before = none ∧ m.amount_cents = none ∧ m.verdict_event_id = none

instance (m : Merge) : Decidable m.Shaped := by
  unfold Merge.Shaped
  cases m.action <;> infer_instance

/-- `insert into deduction_merges` -/
def insertMerge (session : Session) (s : Db) (new : Merge) : Except Refusal Db := do
  checkDeductionMerge s session new
  if ¬ new.Shaped then .error .constraint
  else if ∃ m ∈ s.deduction_merges, m.id = new.id ∨ (m.action = new.action ∧ SamePair m new) then .error .constraint
  else if s.find new.merged_deduction_id = none ∨ s.find new.surviving_deduction_id = none then .error .constraint
  else projectDeductionMerge session { s with deduction_merges := s.deduction_merges ++ [new] } new

/-- A row of the tables `refuse_work_on_merged_case` guards. -/
inductive Work
  | decision (deduction_id : Nat)
  | submission (row : Submission)
  | writeoff (deduction_id : Nat)
  | writeback (deduction_id : Nat)
  | decline (row : Decline)
  | link (row : DocumentLink)

def Work.deduction_id : Work → Option Nat
  | .decision id | .writeoff id | .writeback id => some id
  | .submission row => some row.deduction_id
  | .decline row => row.deduction_id
  | .link row => some row.deduction_id

def Work.insert (s : Db) : Work → Db
  | .decision id => { s with decisions := s.decisions ++ [id] }
  | .submission row => { s with submissions := s.submissions ++ [row] }
  | .writeoff id => { s with writeoffs := s.writeoffs ++ [id] }
  | .writeback id => { s with writebacks := s.writebacks ++ [id] }
  | .decline row => { s with declined_candidates := s.declined_candidates ++ [row] }
  | .link row => { s with deduction_documents := s.deduction_documents ++ [row] }

inductive Statement
  | openCase (row : Deduction)
  | recordEvent (deduction_id : Nat) (event_type : EventType) (of : Option Nat)
  | moveCase (id : Nat) (state : CaseState)
  | merge (row : Merge)
  | work (row : Work)
  | storeDocument (row : Document)

/-- What the database makes of a statement. The other triggers on the work tables refuse more of it. -/
def exec (session : Session) (s : Db) (statement : Statement) : Except Refusal Db :=
  if session.may_write = false then .error .not_a_writer
  else
    match statement with
    | .openCase row =>
      if row.state = .merged then .error .unbacked_move
      else if s.find row.id ≠ none ∨ row.deduction_amount_cents ≤ 0 then .error .constraint
      else .ok { s with deductions := s.deductions ++ [row] }
    | .recordEvent id type of => if s.find id = none then .error .constraint else .ok (s.withEvent id type of)
    | .moveCase id state => updateState session s id state
    | .merge row => insertMerge session s row
    | .work row =>
      if ∃ id ∈ row.deduction_id, ∃ c ∈ current s.deduction_merges, c.merged_deduction_id = id then
        .error .merged_away
      else if ∃ id ∈ row.deduction_id, s.find id = none then .error .constraint
      else .ok (row.insert s)
    | .storeDocument row => .ok { s with documents := s.documents ++ [row] }

/-! ## Runs -/

/-- Admitted statements one after another, each `ok` where it is made. -/
inductive Run (ok : Db → Statement → Prop) (s : Db) : Db → Prop
  | refl : Run ok s s
  | step {s' s'' : Db} {session : Session} {statement : Statement} :
      Run ok s s' → ok s' statement → exec session s' statement = .ok s'' → Run ok s s''

/-- A merge is recorded into a case that is not removed. -/
def IntoPresent (s : Db) : Statement → Prop
  | .merge row => row.action = .merge → s.stateOf row.surviving_deduction_id ≠ some .removed
  | _ => True

instance (s : Db) : ∀ statement, Decidable (IntoPresent s statement)
  | .merge _ => inferInstanceAs (Decidable (_ → _))
  | .openCase _ | .recordEvent _ _ _ | .moveCase _ _ | .work _ | .storeDocument _ => isTrue trivial

/-! ## The store's two calls -/

/-- `mergeLockedPair`: the row it inserts says what the database would. -/
def mergeLockedPair (session : Session) (s : Db) (a b id now : Nat) : Except Refusal Db :=
  match mergeRefusal s a b with
  | some refusal => .error refusal
  | none =>
    match mergeSurvivor s a b with
    | none => .error .not_visible
    | some survivor =>
      let loser := if survivor = a then b else a
      exec session s (.merge ⟨id, loser, survivor, .merge, s.stateOf loser,
        (s.find loser).map (·.deduction_amount_cents), (standingEvent s loser survivor).map (·.id), session.user, now⟩)

/-- `undoMerge` -/
def undoMerge (session : Session) (s : Db) (loser id now : Nat) : Except Refusal Db :=
  match (current s.deduction_merges).find? fun c => c.merged_deduction_id = loser with
  | none => .error .not_merged
  | some c =>
    exec session s (.merge ⟨id, loser, c.surviving_deduction_id, .unmerge, none, none, none, session.user, now⟩)

end Recouple.Database.Merges
