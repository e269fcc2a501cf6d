import Recouple.Lib.Search
import Recouple.Pipeline.Store

/-!
# The case state machine: `packages/core-domain/src/state-machine.ts`

The table of edges, `applyTransition`, which moves a case over one of them or says why it cannot, and `isReachable`.

| `state-machine.ts`            | here                                              |
|-------------------------------|---------------------------------------------------|
| `Partial<Record<GuardName, …>>` | `GuardName → Bool`, absent and `false` alike    |
| the set and queue of `isReachable` | `Search.search`                              |

* **`isReachable_iff`**: a state is reachable exactly where a run of `applyTransition` leads to it that leaves no
  avoided state.
* **`filed_once`**: whatever moves are made, a case is filed or written off at most once, out of `awaiting_approval` and
  with an approval row; and it is won, lost, in part recovered, filed or written off exactly where it was.
-/

namespace Recouple.StateMachine
open Js
open Pipeline (CaseState)

def CASE_STATES : List CaseState :=
  [.discovered, .classified, .evidence_pending, .evidence_complete, .decided, .auto_dispute_queued, .analyst_review,
    .auto_writeoff_queued, .awaiting_approval, .submitted, .won, .lost, .partially, .written_off, .merged, .removed]

def TERMINAL_STATES : List CaseState := [.won, .lost, .partially, .written_off]

/-- The states a case may be merged away from: every one before a filing. -/
def MERGEABLE_STATES : List CaseState :=
  [.discovered, .classified, .evidence_pending, .evidence_complete, .decided, .auto_dispute_queued, .analyst_review,
    .auto_writeoff_queued, .awaiting_approval]

def CLOSED_STATES : List CaseState := TERMINAL_STATES ++ [.merged, .removed]

def stateName : CaseState → Text
  | .discovered => "discovered"
  | .classified => "classified"
  | .evidence_pending => "evidence_pending"
  | .evidence_complete => "evidence_complete"
  | .decided => "decided"
  | .auto_dispute_queued => "auto_dispute_queued"
  | .analyst_review => "analyst_review"
  | .auto_writeoff_queued => "auto_writeoff_queued"
  | .awaiting_approval => "awaiting_approval"
  | .submitted => "submitted"
  | .won => "won"
  | .lost => "lost"
  | .partially => "partial"
  | .written_off => "written_off"
  | .merged => "merged"
  | .removed => "removed"

/-- Conditions the orchestrator must evaluate before a transition is legal. -/
inductive GuardName
  | doc_type_known
  | classification_confidence_meets_tenant_minimum
  | all_required_evidence_present
  | decision_schemas_b_and_c_passed
  | confidence_within_tenant_dispute_ceiling
  | amount_within_tenant_writeoff_ceiling
  | analyst_requested_more_evidence
  | packet_assembled_and_submission_safe
  | approval_row_exists
  | outcome_detected
  | human_decision_recorded
  | outcome_recorded_by_human
  | duplicate_confirmed_by_person
  | merge_undone_by_person
  | removed_by_owner_or_approver
deriving DecidableEq

def guardName : GuardName → Text
  | .doc_type_known => "doc_type_known"
  | .classification_confidence_meets_tenant_minimum => "classification_confidence_meets_tenant_minimum"
  | .all_required_evidence_present => "all_required_evidence_present"
  | .decision_schemas_b_and_c_passed => "decision_schemas_b_and_c_passed"
  | .confidence_within_tenant_dispute_ceiling => "confidence_within_tenant_dispute_ceiling"
  | .amount_within_tenant_writeoff_ceiling => "amount_within_tenant_writeoff_ceiling"
  | .analyst_requested_more_evidence => "analyst_requested_more_evidence"
  | .packet_assembled_and_submission_safe => "packet_assembled_and_submission_safe"
  | .approval_row_exists => "approval_row_exists"
  | .outcome_detected => "outcome_detected"
  | .human_decision_recorded => "human_decision_recorded"
  | .outcome_recorded_by_human => "outcome_recorded_by_human"
  | .duplicate_confirmed_by_person => "duplicate_confirmed_by_person"
  | .merge_undone_by_person => "merge_undone_by_person"
  | .removed_by_owner_or_approver => "removed_by_owner_or_approver"

structure Transition where
  «from» : CaseState
  «to» : CaseState
  trigger : Text
  guards : List GuardName
  workflow : Text
deriving DecidableEq

def TRANSITIONS : List Transition :=
  [⟨.discovered, .classified, "document.classified", [.doc_type_known], "classify.case"⟩,
    ⟨.classified, .evidence_pending, "evidence.planned", [.classification_confidence_meets_tenant_minimum],
      "plan.evidence"⟩,
    ⟨.classified, .analyst_review, "decision.recorded", [.human_decision_recorded], "decide.human"⟩,
    ⟨.evidence_pending, .evidence_complete, "evidence.sufficient", [.all_required_evidence_present], "score.evidence"⟩,
    ⟨.evidence_complete, .decided, "decision.recorded", [.decision_schemas_b_and_c_passed], "decide.case"⟩,
    ⟨.decided, .auto_dispute_queued, "decision.routed", [.confidence_within_tenant_dispute_ceiling], "route.decision"⟩,
    ⟨.decided, .analyst_review, "decision.routed", [], "route.decision"⟩,
    ⟨.decided, .auto_writeoff_queued, "decision.routed", [.amount_within_tenant_writeoff_ceiling], "route.decision"⟩,
    ⟨.analyst_review, .evidence_pending, "evidence.requested", [.analyst_requested_more_evidence], "plan.evidence"⟩,
    ⟨.auto_dispute_queued, .awaiting_approval, "packet.assembled", [.packet_assembled_and_submission_safe],
      "assemble.packet"⟩,
    ⟨.analyst_review, .awaiting_approval, "packet.assembled", [.packet_assembled_and_submission_safe],
      "assemble.packet"⟩,
    ⟨.auto_writeoff_queued, .awaiting_approval, "packet.assembled", [.packet_assembled_and_submission_safe],
      "assemble.packet"⟩,
    ⟨.awaiting_approval, .submitted, "submission.recorded", [.approval_row_exists],
      "submit.packet (waitForEvent approval.granted)"⟩,
    ⟨.awaiting_approval, .written_off, "writeoff.recorded", [.approval_row_exists],
      "writeoff.case (waitForEvent approval.granted)"⟩,
    ⟨.submitted, .won, "outcome.detected", [.outcome_detected], "detect.outcome"⟩,
    ⟨.submitted, .lost, "outcome.detected", [.outcome_detected], "detect.outcome"⟩,
    ⟨.submitted, .partially, "outcome.detected", [.outcome_detected], "detect.outcome"⟩,
    ⟨.submitted, .won, "outcome.recorded", [.outcome_recorded_by_human], "record.outcome"⟩,
    ⟨.submitted, .partially, "outcome.recorded", [.outcome_recorded_by_human], "record.outcome"⟩,
    ⟨.submitted, .lost, "outcome.recorded", [.outcome_recorded_by_human], "record.outcome"⟩] ++
  MERGEABLE_STATES.flatMap (fun state =>
    [⟨state, .merged, "case.merged_into", [.duplicate_confirmed_by_person], "merge.duplicate"⟩,
      ⟨.merged, state, "case.merge_undone", [.merge_undone_by_person], "unmerge.duplicate"⟩]) ++
  MERGEABLE_STATES.map fun state =>
    ⟨state, .removed, "case.removed", [.removed_by_owner_or_approver], "remove.case"⟩

def transitionsFrom (state : CaseState) : List Transition := TRANSITIONS.filter fun t => t.from = state

/-- `applyTransition`: moves a case, or explains why it cannot move. -/
def applyTransition («from» «to» : CaseState) (trigger : Text) (guards : GuardName → Bool) : Except Text Transition :=
  let candidates := TRANSITIONS.filter fun t => t.from = «from» ∧ t.to = «to» ∧ t.trigger = trigger
  let edge := stateName «from» ++ " → ".toList ++ stateName «to» ++ " on ".toList ++ trigger
  if candidates = [] then .error ("illegal transition ".toList ++ edge)
  else
    match candidates.filter fun t => t.guards.all guards with
    | [t] => .ok t
    | [] =>
      .error ("transition ".toList ++ edge ++ " blocked by unmet guard(s): ".toList ++
        List.intercalate "; ".toList (candidates.map fun t => t.trigger ++ ": ".toList ++
          List.intercalate ", ".toList ((t.guards.filter fun g => !guards g).map guardName)))
    | satisfied =>
      .error ("ambiguous transition ".toList ++ edge ++ ": ".toList ++ decimal satisfied.length ++
        " edges are satisfied at once (".toList ++ List.intercalate ", ".toList (satisfied.map (·.workflow)) ++
        ") — the table is wrong".toList)

def nextStates (state : CaseState) : List CaseState := (transitionsFrom state).map (·.to)

/-- Breadth-first reachability, optionally forbidding states along the way. -/
def isReachable («from» «to» : CaseState) (avoid : List CaseState) : Bool :=
  if «from» ∈ avoid then false else Search.search nextStates «to» avoid (CASE_STATES.length + 1) [«from»] [«from»]

/-! ## One move -/

theorem mem_CASE_STATES (state : CaseState) : state ∈ CASE_STATES := by cases state <;> decide

/-- No two edges of the table are one fact between the same states. -/
theorem edges_distinct : (TRANSITIONS.map fun t => (t.from, t.to, t.trigger)).Nodup := by decide +kernel

theorem applyTransition_ok {s «to» : CaseState} {trigger : Text} {guards : GuardName → Bool} {t : Transition} :
    applyTransition s «to» trigger guards = .ok t ↔
      t ∈ TRANSITIONS ∧ t.from = s ∧ t.to = «to» ∧ t.trigger = trigger ∧ ∀ g ∈ t.guards, guards g = true := by
  have hcandidate : ∀ t, t ∈ (TRANSITIONS.filter fun t => t.from = s ∧ t.to = «to» ∧ t.trigger = trigger) ↔
      t ∈ TRANSITIONS ∧ t.from = s ∧ t.to = «to» ∧ t.trigger = trigger := fun t => by
    rw [List.mem_filter, decide_eq_true_eq]
  have hnodup : (TRANSITIONS.filter fun t => t.from = s ∧ t.to = «to» ∧ t.trigger = trigger).Nodup :=
    (List.Nodup.of_map _ edges_distinct).filter _
  unfold applyTransition
  dsimp only
  generalize TRANSITIONS.filter (fun t => t.from = s ∧ t.to = «to» ∧ t.trigger = trigger) = candidates at hcandidate hnodup
  have hone : ∀ t ∈ candidates, ∀ t' ∈ candidates, t = t' := by
    intro t ht t' ht'
    obtain ⟨hmem, rfl, rfl, rfl⟩ := (hcandidate t).1 ht
    obtain ⟨hmem', hfrom, hto, htrigger⟩ := (hcandidate t').1 ht'
    exact List.inj_on_of_nodup_map edges_distinct hmem hmem' (by rw [hfrom, hto, htrigger])
  have hsatisfied : ∀ t, t ∈ (candidates.filter fun t => t.guards.all guards) ↔
      t ∈ TRANSITIONS ∧ t.from = s ∧ t.to = «to» ∧ t.trigger = trigger ∧ ∀ g ∈ t.guards, guards g = true := by
    intro t
    rw [List.mem_filter, hcandidate, List.all_eq_true]
    exact ⟨fun h => ⟨h.1.1, h.1.2.1, h.1.2.2.1, h.1.2.2.2, h.2⟩,
      fun h => ⟨⟨h.1, h.2.1, h.2.2.1, h.2.2.2.1⟩, h.2.2.2.2⟩⟩
  rw [← hsatisfied]
  split
  · rename_i hnone
    rw [hnone]
    exact iff_of_false (fun h => by cases h) List.not_mem_nil
  · split
    · rename_i u hu
      rw [hu, List.mem_singleton, Except.ok.injEq, eq_comm]
    · rename_i hnone
      rw [hnone]
      exact iff_of_false (fun h => by cases h) List.not_mem_nil
    · rename_i hnotone hnotnil
      -- two satisfied edges would be one
      exfalso
      cases hlist : candidates.filter fun t => t.guards.all guards with
      | nil => exact hnotnil hlist
      | cons u rest =>
        cases rest with
        | nil => exact hnotone u hlist
        | cons v rest =>
          have hnodup' := hnodup.filter fun t => t.guards.all guards
          rw [hlist] at hnodup'
          have hu : u ∈ candidates := List.mem_of_mem_filter (hlist ▸ List.mem_cons_self)
          have hv : v ∈ candidates := List.mem_of_mem_filter (hlist ▸ List.mem_cons_of_mem _ List.mem_cons_self)
          exact (List.nodup_cons.1 hnodup').1 (hone u hu v hv ▸ List.mem_cons_self)

/-! ## Runs -/

/-- A run of accepted moves: the edges crossed, each with the guards the move was made with. -/
inductive Run : CaseState → List (Transition × (GuardName → Bool)) → CaseState → Prop
  | nil (s : CaseState) : Run s [] s
  | cons {s s' : CaseState} {t : Transition} {guards : GuardName → Bool}
      {moves : List (Transition × (GuardName → Bool))} :
      applyTransition s t.to t.trigger guards = .ok t → Run t.to moves s' → Run s ((t, guards) :: moves) s'

theorem run_append {s s' s'' : CaseState} {moves moves' : List (Transition × (GuardName → Bool))} (h : Run s moves s')
    (h' : Run s' moves' s'') : Run s (moves ++ moves') s'' := by
  induction h with
  | nil => exact h'
  | cons happly _ ih => exact .cons happly (ih h')

/-- Every edge of the table is crossed under some guards. -/
theorem run_edge {t : Transition} (h : t ∈ TRANSITIONS) : Run t.from [(t, fun _ => true)] t.to :=
  .cons (applyTransition_ok.2 ⟨h, rfl, rfl, rfl, fun _ _ => rfl⟩) (.nil _)

theorem mem_nextStates {s s' : CaseState} : s' ∈ nextStates s ↔ ∃ t ∈ TRANSITIONS, t.from = s ∧ t.to = s' := by
  unfold nextStates transitionsFrom
  rw [List.mem_map]
  constructor
  · rintro ⟨t, ht, rfl⟩
    obtain ⟨hmem, hfrom⟩ := List.mem_filter.1 ht
    exact ⟨t, hmem, of_decide_eq_true hfrom, rfl⟩
  · rintro ⟨t, ht, hfrom, rfl⟩
    exact ⟨t, List.mem_filter.2 ⟨ht, decide_eq_true hfrom⟩, rfl⟩

/-- Steps that enter no avoided state are a run that leaves none. -/
theorem run_of_steps {avoid : List CaseState} {s s' : CaseState} (hs : s ∉ avoid)
    (h : Relation.ReflTransGen (Search.Step nextStates avoid) s s') :
    s' ∉ avoid ∧ ∃ moves, Run s moves s' ∧ ∀ move ∈ moves, move.1.from ∉ avoid := by
  induction h with
  | refl => exact ⟨hs, [], .nil s, fun _ h => absurd h List.not_mem_nil⟩
  | tail _ hstep ih =>
    obtain ⟨hprior, moves, hrun, hclear⟩ := ih
    obtain ⟨t, ht, rfl, rfl⟩ := mem_nextStates.1 hstep.1
    refine ⟨hstep.2, moves ++ [(t, fun _ => true)], run_append hrun (run_edge ht), fun move hmove => ?_⟩
    rcases List.mem_append.1 hmove with hmove | hmove
    · exact hclear move hmove
    · rw [List.mem_singleton.1 hmove]
      exact hprior

theorem leads_of_run {avoid : List CaseState} {s s' : CaseState} {moves : List (Transition × (GuardName → Bool))}
    (h : Run s moves s') (hne : moves ≠ []) (hclear : ∀ move ∈ moves, move.1.from ∉ avoid) :
    Search.Leads nextStates avoid s s' := by
  induction h with
  | nil => exact absurd rfl hne
  | @cons s s' t guards moves happly hrun ih =>
    obtain ⟨hmem, hfrom, -⟩ := applyTransition_ok.1 happly
    have hnext : t.to ∈ nextStates s := mem_nextStates.2 ⟨t, hmem, hfrom, rfl⟩
    cases moves with
    | nil =>
      cases hrun
      exact ⟨s, .refl, hnext⟩
    | cons move moves =>
      obtain ⟨y, hpath, hgoal⟩ := ih (List.cons_ne_nil _ _) fun m hm => hclear m (List.mem_cons_of_mem _ hm)
      have havoid : t.to ∉ avoid := by
        cases hrun with
        | cons happly' _ =>
          obtain ⟨-, hfrom', -⟩ := applyTransition_ok.1 happly'
          exact hfrom' ▸ hclear _ (List.mem_cons_of_mem _ List.mem_cons_self)
      exact ⟨y, .head ⟨hnext, havoid⟩ hpath, hgoal⟩

/-- **A state is reachable exactly where moves lead to it**, at least one of them, that leave no avoided state. -/
theorem isReachable_iff (s s' : CaseState) (avoid : List CaseState) :
    isReachable s s' avoid = true ↔
      ∃ moves, moves ≠ [] ∧ Run s moves s' ∧ ∀ move ∈ moves, move.1.from ∉ avoid := by
  unfold isReachable
  split
  · rename_i hs
    refine iff_of_false (fun h => by cases h) ?_
    rintro ⟨moves, hne, hrun, hclear⟩
    cases hrun with
    | nil => exact hne rfl
    | @cons _ _ t _ _ happly _ =>
      obtain ⟨-, hfrom, -⟩ := applyTransition_ok.1 happly
      exact hclear _ List.mem_cons_self (hfrom.symm ▸ hs)
  · rename_i hs
    have hsearch := @Search.search_iff _ _ nextStates s' avoid CASE_STATES s _ (fun _ y _ => mem_CASE_STATES y)
      (mem_CASE_STATES s) (Nat.lt_succ_self _)
    rw [hsearch]
    constructor
    · rintro ⟨y, hpath, hgoal⟩
      obtain ⟨hy, moves, hrun, hclear⟩ := run_of_steps hs hpath
      obtain ⟨t, ht, rfl, rfl⟩ := mem_nextStates.1 hgoal
      refine ⟨moves ++ [(t, fun _ => true)], by simp, run_append hrun (run_edge ht), fun move hmove => ?_⟩
      rcases List.mem_append.1 hmove with hmove | hmove
      · exact hclear move hmove
      · rw [List.mem_singleton.1 hmove]
        exact hy
    · rintro ⟨moves, hne, hrun, hclear⟩
      exact leads_of_run hrun hne hclear

/-! ## Filing -/

/-- A case that was filed or written off, whatever came of it. -/
def isFiled (s : CaseState) : Bool := [CaseState.submitted, .won, .lost, .partially, .written_off].contains s

/-- The edges that file a case, or write it off. -/
def files (t : Transition) : Bool := t.to == .submitted || t.to == .written_off

/-- An edge files a case that was not, from `awaiting_approval` and on an approval row; any other leaves it as it was. -/
def Honest (t : Transition) : Prop :=
  if files t then isFiled t.from = false ∧ isFiled t.to = true ∧ t.from = .awaiting_approval ∧ .approval_row_exists ∈ t.guards
  else isFiled t.from = isFiled t.to

instance : DecidablePred Honest := fun t => by
  unfold Honest
  infer_instance

theorem edges_honest : ∀ t ∈ TRANSITIONS, Honest t := by decide +kernel

/-- **A case is filed or written off at most once**, out of `awaiting_approval` and with an approval row, and exactly
where it ends filed. -/
theorem filed_once {s s' : CaseState} {moves : List (Transition × (GuardName → Bool))} (h : Run s moves s')
    (hs : isFiled s = false) :
    (moves.countP fun move => files move.1) = (if isFiled s' then 1 else 0) ∧
      ∀ move ∈ moves, files move.1 = true → move.1.from = .awaiting_approval ∧ move.2 .approval_row_exists = true := by
  have key : (moves.countP fun move => files move.1) + (if isFiled s then 1 else 0) = (if isFiled s' then 1 else 0) ∧
      ∀ move ∈ moves, files move.1 = true → move.1.from = .awaiting_approval ∧ move.2 .approval_row_exists = true := by
    clear hs
    induction h with
    | nil s => exact ⟨by simp, fun _ h => absurd h List.not_mem_nil⟩
    | @cons s s' t guards moves happly _ ih =>
      obtain ⟨hmem, rfl, -, -, hguards⟩ := applyTransition_ok.1 happly
      obtain ⟨hcount, hall⟩ := ih
      have hedge := edges_honest t hmem
      unfold Honest at hedge
      rw [List.countP_cons]
      split at hedge
      · rename_i hfiles
        obtain ⟨hbefore, hafter, hfrom, hguard⟩ := hedge
        rw [hafter, if_pos rfl] at hcount
        refine ⟨by rw [if_pos hfiles, hbefore]; simpa using hcount, fun move hmove hmovefiles => ?_⟩
        rcases List.mem_cons.1 hmove with rfl | hmove
        · exact ⟨hfrom, hguards _ hguard⟩
        · exact hall move hmove hmovefiles
      · rename_i hfiles
        rw [if_neg hfiles, hedge]
        refine ⟨hcount, fun move hmove hmovefiles => ?_⟩
        rcases List.mem_cons.1 hmove with rfl | hmove
        · exact absurd hmovefiles hfiles
        · exact hall move hmove hmovefiles
  rw [hs] at key
  exact key

/-- A case that a person decides, another approves, and a third files and wins. -/
def wonByPerson : List (Transition × (GuardName → Bool)) :=
  [⟨.discovered, .classified, "document.classified", [.doc_type_known], "classify.case"⟩,
    ⟨.classified, .analyst_review, "decision.recorded", [.human_decision_recorded], "decide.human"⟩,
    ⟨.analyst_review, .awaiting_approval, "packet.assembled", [.packet_assembled_and_submission_safe],
      "assemble.packet"⟩,
    ⟨.awaiting_approval, .submitted, "submission.recorded", [.approval_row_exists],
      "submit.packet (waitForEvent approval.granted)"⟩,
    ⟨.submitted, .won, "outcome.recorded", [.outcome_recorded_by_human], "record.outcome"⟩].map
    fun (t : Transition) => (t, fun _ => true)

theorem filed_once_won :
    wonByPerson.countP (fun move => files move.1) = 1 ∧
      ∀ move ∈ wonByPerson, files move.1 = true →
        move.1.from = .awaiting_approval ∧ move.2 .approval_row_exists = true := by
  have hedge : ∀ move ∈ wonByPerson, move.1 ∈ TRANSITIONS := by decide +kernel
  have hrun : Run .discovered wonByPerson .won :=
    run_append (run_edge (hedge _ (.head _))) <|
      run_append (run_edge (hedge _ (.tail _ (.head _)))) <|
        run_append (run_edge (hedge _ (.tail _ (.tail _ (.head _))))) <|
          run_append (run_edge (hedge _ (.tail _ (.tail _ (.tail _ (.head _)))))) <|
            run_edge (hedge _ (.tail _ (.tail _ (.tail _ (.tail _ (.head _))))))
  exact filed_once hrun rfl

end Recouple.StateMachine
