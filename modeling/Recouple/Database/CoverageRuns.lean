import Recouple.Database.Coverage
import Recouple.Database.MergeRuns
import Recouple.Database.Workflow

/-!
# Coverage over runs of the workflow, merges and removals

In every state the store's operations lead to, coverage counts each dollar once: what it opened is the cases
that are neither merged away nor removed, every filing is counted once, and an undo brings back the figures of
the unmerged cases (`coverage_counts_once`). The channel of a case is that of the earliest notice of its group,
and its month that of the earliest opening: `opened_after_its_notice` is a notice of the month before.
-/

namespace Recouple.Database.Merges
open Pipeline (CaseState UploadSource)
open GroupedSums
open Workflow (transitions)

/-! ## Runs of the store's operations -/

/-- The state machine has an edge between the two states. -/
def Edge (old new : CaseState) : Prop := ∃ t ∈ transitions, t.source = old ∧ t.target = new

instance (old new : CaseState) : Decidable (Edge old new) := inferInstanceAs (Decidable (∃ t ∈ _, _))

/-- A statement the store makes outside of a filing: a case is opened in a state before a filing, and moved
along an edge of the state machine. -/
def Stored (s : Db) : Statement → Prop
  | .openCase row => row.state ∈ beforeFiling
  | .moveCase id new => new ≠ .submitted ∧ ∀ old ∈ s.stateOf id, Edge old new
  | .work (.submission _) => False
  | _ => True

instance (s : Db) : ∀ statement, Decidable (Stored s statement)
  | .openCase _ => inferInstanceAs (Decidable (_ ∈ _))
  | .moveCase _ _ => inferInstanceAs (Decidable (_ ∧ _))
  | .work (.submission _) => isFalse id
  | .work (.decision _) | .work (.writeoff _) | .work (.writeback _) | .work (.decline _) | .work (.link _) =>
    isTrue trivial
  | .recordEvent _ _ _ | .merge _ | .storeDocument _ => isTrue trivial

/-- `recordSubmission`: the row and the move of the case in one transaction. -/
def recordSubmission (session : Session) (s : Db) (row : Submission) : Except Refusal Db :=
  if s.stateOf row.deduction_id ≠ some .awaiting_approval then .error .stale_state
  else do
    let s ← exec session s (.work (.submission row))
    exec session s (.moveCase row.deduction_id .submitted)

/-- The states the store's operations lead to. -/
inductive WorkflowRun (s : Db) : Db → Prop
  | refl : WorkflowRun s s
  | step {s' s'' : Db} {session : Session} {statement : Statement} :
      WorkflowRun s s' → Stored s' statement → exec session s' statement = .ok s'' → WorkflowRun s s''
  | filed {s' s'' : Db} {session : Session} {row : Submission} :
      WorkflowRun s s' → recordSubmission session s' row = .ok s'' → WorkflowRun s s''

theorem recordSubmission_ok {session : Session} {s s' : Db} {row : Submission}
    (h : recordSubmission session s row = .ok s') : s.stateOf row.deduction_id = some .awaiting_approval ∧
      ∃ s₁, exec session s (.work (.submission row)) = .ok s₁ ∧
        exec session s₁ (.moveCase row.deduction_id .submitted) = .ok s' := by
  unfold recordSubmission at h
  split_ifs at h with hstate
  rw [not_not] at hstate
  obtain ⟨s₁, h₁, h₂⟩ := KeyedFold.bind_ok.1 h
  exact ⟨hstate, s₁, h₁, h₂⟩

/-- They are admitted statements. -/
theorem WorkflowRun.run {s s' : Db} (h : WorkflowRun s s') : Run (fun _ _ => True) s s' := by
  induction h with
  | refl => exact .refl
  | step _ _ hexec ih => exact ih.step trivial hexec
  | filed _ hfiled ih =>
    obtain ⟨-, s₁, h₁, h₂⟩ := recordSubmission_ok hfiled
    exact (ih.step trivial h₁).step trivial h₂

/-! ## What every admitted statement keeps -/

section
variable {s s' : Db} {session : Session} {statement : Statement}

/-- A row of the ledger leaves every other table the view reads alone. -/
theorem insertMerge_frame {new : Merge} (h : insertMerge session s new = .ok s') :
    s'.submissions = s.submissions ∧ s'.declined_candidates = s.declined_candidates ∧ s'.documents = s.documents ∧
      s'.deduction_documents = s.deduction_documents := by
  obtain ⟨-, -, -, hproj⟩ := insertMerge_ok h
  unfold projectDeductionMerge at hproj
  cases ha : new.action with
  | merge =>
    rw [ha] at hproj
    obtain ⟨s₂, hupdate, hproj⟩ := KeyedFold.bind_ok.1 hproj
    cases hproj
    obtain ⟨-, rfl⟩ | ⟨old, -, rfl, -⟩ := updateState_ok hupdate <;> exact ⟨rfl, rfl, rfl, rfl⟩
  | unmerge =>
    rw [ha] at hproj
    dsimp only at hproj
    split at hproj
    · cases hproj
    · obtain ⟨s₂, hupdate, hproj⟩ := KeyedFold.bind_ok.1 hproj
      cases hproj
      obtain ⟨-, rfl⟩ | ⟨old, -, rfl, -⟩ := updateState_ok hupdate <;> exact ⟨rfl, rfl, rfl, rfl⟩

/-- What a statement does to the filings. -/
theorem exec_submissions (h : exec session s statement = .ok s') : s'.submissions = s.submissions ∨
    ∃ row, statement = .work (.submission row) ∧ s'.submissions = s.submissions ++ [row] := by
  unfold exec at h
  split_ifs at h with hw
  cases statement with
  | openCase row =>
    dsimp only at h
    split_ifs at h
    cases h
    exact .inl rfl
  | recordEvent id type of =>
    dsimp only at h
    split_ifs at h
    cases h
    exact .inl rfl
  | moveCase id new =>
    obtain ⟨-, rfl⟩ | ⟨old, -, rfl, -⟩ := updateState_ok h <;> exact .inl rfl
  | merge row => exact .inl (insertMerge_frame h).1
  | work row =>
    dsimp only at h
    split_ifs at h
    cases h
    cases row with
    | submission row => exact .inr ⟨row, rfl, rfl⟩
    | _ => exact .inl rfl
  | storeDocument row =>
    cases h
    exact .inl rfl

/-- What a statement does to the state of a case that is there. -/
theorem state_exec (hl : Ledgered s) (hexec : exec session s statement = .ok s') {id : Nat} {st : CaseState}
    (hst : s.stateOf id = some st) : s'.stateOf id = some st ∨
      (∃ new, statement = .moveCase id new ∧ s'.stateOf id = some new) ∨
      ∃ row, statement = .merge row ∧ (st ∈ beforeFiling ∨ st = .merged) := by
  obtain ⟨hd, -, -⟩ | ⟨row, rfl, -, hnew, rfl⟩ | ⟨id', new, rfl, hmove⟩ | ⟨row, rfl, hinsert⟩ := exec_ok hexec
  · left
    rw [Db.stateOf, Db.find, hd]
    exact hst
  · left
    have hne : id ≠ row.id := by
      rintro rfl
      rw [Db.stateOf, hnew] at hst
      cases hst
    rw [Db.stateOf, Db.find, Rows.lookup_insert hnew, if_neg hne]
    exact hst
  · obtain ⟨-, rfl⟩ | ⟨old, hold, rfl, -⟩ := updateState_ok hmove
    · exact .inl hst
    · rw [stateOf_withState]
      by_cases he : id = id'
      · subst he
        rw [if_pos rfl, hst]
        exact .inr (.inl ⟨new, rfl, rfl⟩)
      · rw [if_neg he]
        exact .inl hst
  · by_cases he : id = row.merged_deduction_id
    · subst he
      refine .inr (.inr ⟨row, rfl, ?_⟩)
      cases ha : row.action with
      | merge =>
        obtain ⟨st', hst', hstate, -⟩ := merge_ok ha hinsert
        rw [hst] at hstate
        cases hstate
        exact .inl hst'
      | unmerge =>
        obtain ⟨c, -, -, -, st', -, -, hstate, -⟩ := undo_ok hl ha hinsert
        rw [hst] at hstate
        cases hstate
        exact .inr rfl
    · left
      have hkeep : ∀ {st' : CaseState}, s'.deductions = (s.withState row.merged_deduction_id st').deductions →
          s'.stateOf id = some st := fun hd => by
        rw [Db.stateOf, Db.find, hd, ← Db.find, ← Db.stateOf, stateOf_withState, if_neg he]
        exact hst
      cases ha : row.action with
      | merge =>
        obtain ⟨st', -, -, -, -, -, -, -, hd, -⟩ := merge_ok ha hinsert
        exact hkeep hd
      | unmerge =>
        obtain ⟨c, -, -, -, st', -, -, -, hd, -⟩ := undo_ok hl ha hinsert
        exact hkeep hd

/-! ## Filed cases stay -/

/-- The states from a filing on. -/
def afterFiling : List CaseState := [.submitted, .won, .lost, .partially]

/-- Every filing is of a case in a state after it. -/
def Filed (s : Db) : Prop := ∀ f ∈ s.submissions, ∃ st ∈ afterFiling, s.stateOf f.deduction_id = some st

theorem afterFiling_edge {old new : CaseState} (h : old ∈ afterFiling) (hedge : Edge old new) : new ∈ afterFiling := by
  have hall : ∀ t ∈ transitions, t.source ∈ afterFiling → t.target ∈ afterFiling := by decide
  obtain ⟨t, ht, rfl, rfl⟩ := hedge
  exact hall t ht h

theorem afterFiling_apart {st : CaseState} (h : st ∈ afterFiling) : st ∉ beforeFiling ∧ st ≠ .merged ∧ st ≠ .removed := by
  revert st
  decide

theorem Filed.step (hl : Ledgered s) (h : Filed s) (hok : Stored s statement)
    (hexec : exec session s statement = .ok s') : Filed s' := by
  intro f hf
  obtain hsame | ⟨row, rfl, -⟩ := exec_submissions hexec
  · rw [hsame] at hf
    obtain ⟨st, hst, hstate⟩ := h f hf
    obtain hkeep | ⟨new, rfl, hnew⟩ | ⟨row, -, hbefore⟩ := state_exec hl hexec hstate
    · exact ⟨st, hst, hkeep⟩
    · exact ⟨new, afterFiling_edge hst (hok.2 st hstate), hnew⟩
    · obtain ⟨hnot, hne, -⟩ := afterFiling_apart hst
      exact absurd hbefore (not_or.2 ⟨hnot, hne⟩)
  · exact absurd hok id

theorem Filed.filed (hl : Ledgered s) (h : Filed s) {row : Submission}
    (hfiled : recordSubmission session s row = .ok s') : Filed s' := by
  obtain ⟨hawait, s₁, hwork, hmove⟩ := recordSubmission_ok hfiled
  have hrows : s₁.submissions = s.submissions ++ [row] := by
    obtain hsame | ⟨row', hrow', hrows⟩ := exec_submissions hwork
    · unfold exec at hwork
      split_ifs at hwork
      dsimp only at hwork
      split_ifs at hwork
      cases hwork
      rfl
    · cases hrow'
      exact hrows
  have hsame : s'.submissions = s₁.submissions := by
    obtain hsame | ⟨row', hrow', -⟩ := exec_submissions hmove
    · exact hsame
    · cases hrow'
  have hl₁ := hl.exec hwork
  have hstate₁ : ∀ {id st}, s.stateOf id = some st → s₁.stateOf id = some st := fun {id st} hst => by
    obtain hkeep | ⟨new, hcase, -⟩ | ⟨row', hcase, -⟩ := state_exec hl hwork hst
    · exact hkeep
    · cases hcase
    · cases hcase
  -- the case that was filed is `submitted`, and the others are where they were
  have hmoved : ∀ {id st}, s₁.stateOf id = some st →
      s'.stateOf id = if id = row.deduction_id then some .submitted else some st := fun {id st} hst => by
    unfold exec at hmove
    split_ifs at hmove
    dsimp only at hmove
    obtain ⟨hnone, -⟩ | ⟨old, -, rfl, -⟩ := updateState_ok hmove
    · rw [hstate₁ hawait] at hnone
      cases hnone
    · rw [stateOf_withState, hst]
      rfl
  intro f hf
  rw [hsame, hrows] at hf
  rcases List.mem_append.1 hf with hf | hf
  · obtain ⟨st, hst, hstate⟩ := h f hf
    by_cases he : f.deduction_id = row.deduction_id
    · exact ⟨.submitted, by decide, by rw [hmoved (hstate₁ hstate), if_pos he]⟩
    · exact ⟨st, hst, by rw [hmoved (hstate₁ hstate), if_neg he]⟩
  · rw [List.mem_singleton.1 hf]
    exact ⟨.submitted, by decide, by rw [hmoved (hstate₁ hawait), if_pos rfl]⟩

theorem WorkflowRun.ledgered (h : WorkflowRun .empty s) : Ledgered s := ledgered_empty.run h.run

theorem WorkflowRun.all_filed (h : WorkflowRun .empty s) : Filed s := by
  induction h with
  | refl => exact fun f hf => absurd hf List.not_mem_nil
  | step hrun hok hexec ih => exact ih.step hrun.ledgered hok hexec
  | filed hrun hfiled ih => exact ih.filed hrun.ledgered hfiled

/-- The case of a filing is a deduction of its own. -/
theorem filed_live (hl : Ledgered s) (h : Filed s) {f : Submission} (hf : f ∈ s.submissions) :
    ∃ d ∈ liveCases s, s.find f.deduction_id = some d := by
  obtain ⟨st, hst, hstate⟩ := h f hf
  obtain ⟨-, hmerged, hremoved⟩ := afterFiling_apart hst
  have hmem := hl.merged_iff hstate
  obtain ⟨d, hfind, rfl⟩ := Option.map_eq_some_iff.1 hstate
  have hid := Rows.key_of_lookup hfind
  refine ⟨d, mem_liveCases.2 ⟨Rows.mem_of_lookup hfind, fun ⟨m, hm, he⟩ => hmerged (hmem.2 ⟨m, hm, he.trans hid⟩), hremoved⟩,
    hfind⟩

end

/-! ## Every filing is counted once -/

section
variable {s : Db} {month : Nat → Int} {ratio : Int → Int → ℚ} {rows : List CoverageRow}

/-- The month of a filing, and the channel of its case. -/
def filingKey (s : Db) (month : Nat → Int) (f : Submission) : CoverageKey :=
  ⟨some (month f.created_at), (s.find f.deduction_id).bind fun d => (caseKey s month d).discovered_from⟩

/-- The amount of the case of a filing. -/
def filingCents (s : Db) (f : Submission) : Int := ((s.find f.deduction_id).map (·.deduction_amount_cents)).getD 0

/-- A filing joins one case. -/
theorem filedRows_eq (hl : Ledgered s) (h : Filed s) :
    (filedRows s).map (fun row => (row.1, filedKey s month row, row.2.deduction_amount_cents)) =
      s.submissions.map fun f => (f, filingKey s month f, filingCents s f) := by
  have hjoin : ∀ f ∈ s.submissions, ∃ d, s.find f.deduction_id = some d ∧
      ((liveCases s).filter fun d => d.id = f.deduction_id) = [d] := fun f hf => by
    obtain ⟨d, hd, hfind⟩ := filed_live hl h hf
    refine ⟨d, hfind, ?_⟩
    have hid : d.id = f.deduction_id := Rows.key_of_lookup hfind
    have hnodup : ((liveCases s).filter fun d => d.id = f.deduction_id).Nodup :=
      (List.Nodup.of_map _ hl.ids).sublist (List.filter_sublist.trans List.filter_sublist)
    refine List.perm_singleton.1 ((List.perm_ext_iff_of_nodup hnodup (List.nodup_singleton d)).2 fun e => ?_)
    rw [List.mem_singleton, List.mem_filter, decide_eq_true_eq]
    constructor
    · rintro ⟨he, heid⟩
      exact List.inj_on_of_nodup_map hl.ids (mem_liveCases.1 he).1 (mem_liveCases.1 hd).1 (heid.trans hid.symm)
    · rintro rfl
      exact ⟨hd, hid⟩
  unfold filedRows
  generalize s.submissions = submissions at hjoin
  induction submissions with
  | nil => rfl
  | cons f fs ih =>
    rw [List.forall_mem_cons] at hjoin
    obtain ⟨d, hfind, hfilter⟩ := hjoin.1
    rw [List.flatMap_cons, List.map_append, ih hjoin.2, hfilter, List.map_cons]
    simp [filedKey, filingKey, filingCents, hfind]

/-- The filings of a group, with the amounts of their cases. -/
theorem filed_group (hl : Ledgered s) (h : Filed s) (key : CoverageKey) :
    (GroupedSums.rowsOf (filedKey s month) (filedRows s) key).map (fun row => (row.1, row.2.deduction_amount_cents)) =
      (GroupedSums.rowsOf (filingKey s month) s.submissions key).map fun f => (f, filingCents s f) := by
  have hmap := congrArg
    (fun l => (l.filter fun e : Submission × CoverageKey × Int => e.2.1 = key).map fun e => (e.1, e.2.2))
    (filedRows_eq hl h : _ = s.submissions.map fun f => (f, filingKey s month f, filingCents s f))
  simpa [List.filter_map, Function.comp_def, GroupedSums.rowsOf] using hmap

theorem filed_group_length (hl : Ledgered s) (h : Filed s) (key : CoverageKey) :
    (GroupedSums.rowsOf (filedKey s month) (filedRows s) key).length =
      (GroupedSums.rowsOf (filingKey s month) s.submissions key).length := by
  have hlength := congrArg List.length (filed_group hl h key : _ = List.map _ (GroupedSums.rowsOf (filingKey s month) _ _))
  rwa [List.length_map, List.length_map] at hlength

theorem filed_group_cents (hl : Ledgered s) (h : Filed s) (key : CoverageKey) :
    (GroupedSums.rowsOf (filedKey s month) (filedRows s) key).map (·.2.deduction_amount_cents) =
      (GroupedSums.rowsOf (filingKey s month) s.submissions key).map (filingCents s) := by
  have hcents := congrArg (List.map Prod.snd) (filed_group hl h key : _ = List.map _ (GroupedSums.rowsOf (filingKey s month) _ _))
  rwa [List.map_map, List.map_map] at hcents

/-- The view counts every case, filing and decline of the tenant once. -/
structure CountsOnce (s : Db) (month : Nat → Int) (rows : List CoverageRow) : Prop where
  keys : (rows.map (·.key)).Nodup
  /-- A case is in the row of its key, with its amount. -/
  opened : ∀ row ∈ rows, row.opened_count = (GroupedSums.rowsOf (caseKey s month) (liveCases s) row.key).length ∧
    row.opened_cents = ((GroupedSums.rowsOf (caseKey s month) (liveCases s) row.key).map (·.deduction_amount_cents)).sum
  cases : ∀ d ∈ liveCases s, ∃ row ∈ rows, row.key = caseKey s month d
  opened_total : (rows.map (·.opened_cents)).sum = ((liveCases s).map (·.deduction_amount_cents)).sum
  /-- A filing is in the row of its month and its case's channel, with the amount of its case. -/
  filed : ∀ row ∈ rows, row.filed_count = (GroupedSums.rowsOf (filingKey s month) s.submissions row.key).length ∧
    row.filed_cents = ((GroupedSums.rowsOf (filingKey s month) s.submissions row.key).map (filingCents s)).sum
  filings : ∀ f ∈ s.submissions, (∃ row ∈ rows, row.key = filingKey s month f) ∧
    ∃ d ∈ liveCases s, d.id = f.deduction_id ∧ filingCents s f = d.deduction_amount_cents
  filed_total : (rows.map (·.filed_count)).sum = s.submissions.length
  filed_cents_total : (rows.map (·.filed_cents)).sum = (s.submissions.map (filingCents s)).sum
  /-- What a row discovered is what it opened and the declines of its month and channel that never became a case. -/
  discovered : ∀ row ∈ rows, row.discovered_cents =
    row.opened_cents + ((GroupedSums.rowsOf (declinedKey month) (declinedRows s) row.key).map uncased).sum
  discovered_total : (rows.map (·.discovered_cents)).sum =
    (rows.map (·.opened_cents)).sum + ((uncasedDeclines s).map (·.estimated_recoverable_cents)).sum

theorem counts_once (hl : Ledgered s) (hf : Filed s) (h : coverage s month ratio = some rows) :
    CountsOnce s month rows := by
  have hkeys := coverage_keys h
  have hrow : ∀ row ∈ rows, coverageRow s month ratio row.key = some row := fun row hmem => by
    have hall := coverage_forall₂ h
    rw [← hkeys, List.forall₂_map_left_iff, List.forall₂_same] at hall
    exact hall row hmem
  have hfiling : ∀ f ∈ s.submissions, filingKey s month f ∈ coverageKeys s month := fun f hmem => by
    have hpair : (f, filingKey s month f, filingCents s f) ∈
        (filedRows s).map fun row => (row.1, filedKey s month row, row.2.deduction_amount_cents) := by
      rw [filedRows_eq hl hf]
      exact List.mem_map_of_mem hmem
    obtain ⟨row, hrow, heq⟩ := List.mem_map.1 hpair
    exact mem_coverageKeys.2 (.inr (.inl ⟨row, hrow, (Prod.mk.inj (Prod.mk.inj heq).2).1⟩))
  have hfiled : ∀ row ∈ rows, row.filed_count = (GroupedSums.rowsOf (filingKey s month) s.submissions row.key).length :=
    fun row hmem => by rw [(coverageRow_eq (hrow row hmem)).2.2.2.1, filed_group_length hl hf]
  have hcents : ∀ row ∈ rows,
      row.filed_cents = ((GroupedSums.rowsOf (filingKey s month) s.submissions row.key).map (filingCents s)).sum :=
    fun row hmem => by rw [(coverageRow_eq (hrow row hmem)).2.2.2.2.1, filed_group_cents hl hf]
  refine ⟨hkeys ▸ nodup_coverageKeys, fun row hmem => ?_, fun d hd => ?_, opened_total h,
    fun row hmem => ⟨hfiled row hmem, hcents row hmem⟩, fun f hmem => ⟨?_, ?_⟩, ?_, ?_,
    fun row hmem => (coverageRow_eq (hrow row hmem)).2.2.2.2.2, discovered_total h⟩
  · obtain ⟨-, hcount, hcents, -⟩ := coverageRow_eq (hrow row hmem)
    exact ⟨hcount, hcents⟩
  · obtain ⟨row, hmem, hkey, -⟩ := case_counted_once h hd
    exact ⟨row, hmem, hkey⟩
  · have hmem' := hfiling f hmem
    rw [← hkeys] at hmem'
    exact List.mem_map.1 hmem'
  · obtain ⟨d, hd, hfind⟩ := filed_live hl hf hmem
    exact ⟨d, hd, Rows.key_of_lookup hfind, by rw [filingCents, hfind]; rfl⟩
  · rw [List.map_congr_left hfiled, ← length_groups (nodup_coverageKeys : (coverageKeys s month).Nodup) hfiling, ← hkeys,
      List.map_map]
    rfl
  · rw [List.map_congr_left hcents, ← sum_groups (nodup_coverageKeys : (coverageKeys s month).Nodup) (filingCents s) hfiling,
      ← hkeys, List.map_map]
    rfl

/-! ## Undoing a merge -/

/-- The tables without a merge and its undo. -/
def withoutMerge (s : Db) (m : Merge) : Db :=
  { s with deduction_merges := s.deduction_merges.filter fun r => r ≠ m ∧ ¬ Undoes r m }

/-- A merge that was undone stands as little as one that never was. -/
theorem current_withoutMerge (hl : Ledgered s) {m u : Merge} (hm : m ∈ s.deduction_merges) (ha : m.action = .merge)
    (hu : u ∈ s.deduction_merges) (hundo : Undoes u m) :
    current (withoutMerge s m).deduction_merges = current s.deduction_merges := by
  unfold current withoutMerge
  dsimp only
  rw [List.filter_filter]
  refine List.filter_congr fun c hc => ?_
  rw [← Bool.decide_and, decide_eq_decide]
  constructor
  · rintro ⟨⟨hmerge, hnone⟩, hne, -⟩
    refine ⟨hmerge, fun r hr hr' => ?_⟩
    by_cases hrest : r ≠ m ∧ ¬ Undoes r m
    · exact hnone r (List.mem_filter.2 ⟨hr, by simpa using hrest⟩) hr'
    · rw [not_and_or, not_not, not_not] at hrest
      obtain rfl | hrm := hrest
      · rw [hr'.1] at ha
        cases ha
      · -- an undo of both is an undo of one pair, and a pair is merged once
        exact hne (hl.once.eq hc hm (hmerge.trans ha.symm)
          (.inl ⟨hr'.2.1.symm.trans hrm.2.1, hr'.2.2.symm.trans hrm.2.2⟩))
  · rintro ⟨hmerge, hnone⟩
    refine ⟨⟨hmerge, fun r hr => hnone r (List.mem_of_mem_filter hr)⟩, ?_, ?_⟩
    · rintro rfl
      exact hnone u hu hundo
    · rintro ⟨hc', -⟩
      rw [hmerge] at hc'
      cases hc'

theorem insertMerge_of_exec {session : Session} {s s' : Db} {row : Merge}
    (h : exec session s (.merge row) = .ok s') : insertMerge session s row = .ok s' := by
  unfold exec at h
  split_ifs at h
  exact h

/-- Moving a case away and back leaves the cases as they were. -/
theorem withState_back (hl : Ledgered s) {id : Nat} {st : CaseState} (st' : CaseState) (hst : s.stateOf id = some st) :
    ((s.withState id st').withState id st).deductions = s.deductions := by
  have hself := congrArg (·.deductions) (hl.withState_self hst)
  refine Eq.trans ?_ hself
  simp only [Db.withState, Rows.modify, List.map_map]
  refine List.map_congr_left fun d _ => ?_
  by_cases hd : d.id = id <;> simp [hd]

/-- **An undo brings the figures back**: they are those of the tables without the merge, the case is where it was,
and if nothing happened in between they are the figures from before the merge. -/
theorem undo_figures (hl : Ledgered s) {session session' : Session} {m u : Merge} {s₁ s₂ s₃ : Db}
    (ha : m.action = .merge) (hmerge : exec session s (.merge m) = .ok s₁) (hrun : WorkflowRun s₁ s₂)
    (hundo : exec session' s₂ (.merge u) = .ok s₃) (hundoes : Undoes u m) :
    coverage s₃ month ratio = coverage (withoutMerge s₃ m) month ratio ∧
      s₃.stateOf m.merged_deduction_id = s.stateOf m.merged_deduction_id ∧
      (s₂ = s₁ → coverage s₃ month ratio = coverage s month ratio) := by
  obtain ⟨st, -, hstate, hbefore, -, -, -, honce, hd₁, hm₁⟩ := merge_ok ha (insertMerge_of_exec hmerge)
  have hl₁ := hl.exec hmerge
  have hl₂ := hl₁.run hrun.run
  have hl₃ := hl₂.exec hundo
  obtain ⟨c, hc, hundoes', -, st', -, hbefore', -, hd₃, hm₃⟩ := undo_ok hl₂ hundoes.1 (insertMerge_of_exec hundo)
  have hmem₂ : m ∈ s₂.deduction_merges := merges_of_run hrun.run m (by rw [hm₁]; simp)
  have hmem₃ : m ∈ s₃.deduction_merges := by
    rw [hm₃]
    exact List.mem_append_left _ hmem₂
  have hu₃ : u ∈ s₃.deduction_merges := by
    rw [hm₃]
    simp
  have hwithout : coverage (withoutMerge s₃ m) month ratio = coverage s₃ month ratio :=
    coverage_congr rfl (current_withoutMerge hl₃ hmem₃ ha hu₃ hundoes) rfl rfl rfl rfl
  refine ⟨hwithout.symm, undo_restores hl ha hmerge hrun.run hundo hundoes, ?_⟩
  rintro rfl
  obtain ⟨hf₁, hk₁, hdoc₁, hlink₁⟩ := insertMerge_frame (insertMerge_of_exec hmerge)
  obtain ⟨hf₃, hk₃, hdoc₃, hlink₃⟩ := insertMerge_frame (insertMerge_of_exec hundo)
  refine coverage_congr ?_ ?_ (hf₃.trans hf₁) (hk₃.trans hk₁) (hdoc₃.trans hdoc₁) (hlink₃.trans hlink₁)
  · have hcm : c = m := hl₂.once.eq (mem_current.1 hc).1 hmem₂ ((mem_current.1 hc).2.1.trans ha.symm)
      (.inl ⟨hundoes'.2.1.symm.trans hundoes.2.1, hundoes'.2.2.symm.trans hundoes.2.2⟩)
    rw [hcm, hbefore, Option.some.injEq] at hbefore'
    rw [hd₃, ← hbefore', hundoes.2.1]
    refine Eq.trans ?_ (withState_back hl .merged hstate)
    unfold Db.withState at hd₁ ⊢
    dsimp only at hd₁ ⊢
    rw [hd₁]
  · rw [hm₃, current_undo hundoes.1, hm₁]
    have hnot : ∀ v ∈ s.deduction_merges, ¬ Undoes v m := fun v hv hundo => by
      obtain ⟨m', hm', ha', hv'⟩ := hl.undone v hv hundo.1
      exact honce m' hm' ha' (.inl ⟨hv'.2.1.symm.trans hundo.2.1, hv'.2.2.symm.trans hundo.2.2⟩)
    rw [current_merge ha hnot, List.filter_append]
    have hself : [m].filter (fun m' => ¬ Undoes u m') = [] := by simp [hundoes]
    rw [hself, List.append_nil, List.filter_eq_self]
    intro c hc
    obtain ⟨hcmem, hcmerge, -⟩ := mem_current.1 hc
    have hnotc : ¬ Undoes u c := fun hundo => honce c hcmem hcmerge
      (.inl ⟨hundo.2.1.symm.trans hundoes.2.1, hundo.2.2.symm.trans hundoes.2.2⟩)
    simpa using hnotc

/-! ## The store's two calls -/

theorem mergeSurvivor_eq {a b survivor : Nat} (h : mergeSurvivor s a b = some survivor) : survivor = a ∨ survivor = b := by
  unfold mergeSurvivor at h
  split_ifs at h
  split at h
  · next d e ha hb =>
    split_ifs at h
    · exact .inl (Option.some.inj h ▸ Rows.key_of_lookup ha)
    · exact .inr (Option.some.inj h ▸ Rows.key_of_lookup hb)
  · cases h

/-- A merge the store makes is a row of the ledger that names the pair, neither of which was merged away. -/
theorem mergeLockedPair_exec {session : Session} {s' : Db} {a b id now : Nat}
    (h : mergeLockedPair session s a b id now = .ok s') :
    (∀ c ∈ current s.deduction_merges, c.merged_deduction_id ≠ a ∧ c.merged_deduction_id ≠ b) ∧
      ∃ row : Merge, row.action = .merge ∧
        ((row.merged_deduction_id = a ∧ row.surviving_deduction_id = b) ∨
          (row.merged_deduction_id = b ∧ row.surviving_deduction_id = a)) ∧ exec session s (.merge row) = .ok s' := by
  unfold mergeLockedPair at h
  split at h
  · cases h
  · next hrefusal =>
    split at h
    · cases h
    · next survivor hsurvivor =>
      obtain ⟨-, -, -, hfree, -⟩ := mergeRefusal_none hrefusal hsurvivor
      refine ⟨hfree, _, rfl, ?_, h⟩
      obtain rfl | rfl := mergeSurvivor_eq hsurvivor
      · exact .inr ⟨if_pos rfl, rfl⟩
      · by_cases hab : survivor = a
        · exact .inr ⟨if_pos hab, hab⟩
        · exact .inl ⟨if_neg hab, rfl⟩

/-- An undo the store makes is a row of the ledger that undoes the standing merge of the case. -/
theorem undoMerge_exec {session : Session} {s' : Db} {loser id now : Nat}
    (h : undoMerge session s loser id now = .ok s') : ∃ c ∈ current s.deduction_merges,
      c.merged_deduction_id = loser ∧ ∃ row, Undoes row c ∧ exec session s (.merge row) = .ok s' := by
  unfold undoMerge at h
  split at h
  · cases h
  · next c hc =>
    have hid : c.merged_deduction_id = loser := by simpa using List.find?_some hc
    exact ⟨c, List.mem_of_find?_eq_some hc, hid,
      ⟨id, loser, c.surviving_deduction_id, .unmerge, none, none, none, session.user, now⟩, ⟨rfl, hid.symm, rfl⟩, h⟩

/-- **The store's calls are steps of its runs.** -/
theorem WorkflowRun.mergeLockedPair {session : Session} {s₀ s' : Db} {a b id now : Nat} (hrun : WorkflowRun s₀ s)
    (h : Merges.mergeLockedPair session s a b id now = .ok s') : WorkflowRun s₀ s' := by
  obtain ⟨-, row, -, -, hexec⟩ := mergeLockedPair_exec h
  have hstored : Stored s (.merge row) := trivial
  exact hrun.step hstored hexec

theorem WorkflowRun.undoMerge {session : Session} {s₀ s' : Db} {loser id now : Nat} (hrun : WorkflowRun s₀ s)
    (h : Merges.undoMerge session s loser id now = .ok s') : WorkflowRun s₀ s' := by
  obtain ⟨c, -, -, row, -, hexec⟩ := undoMerge_exec h
  have hstored : Stored s (.merge row) := trivial
  exact hrun.step hstored hexec

/-- A pair the store merged and took apart again is counted as it was before. -/
theorem undoMerge_figures {session session' : Session} {s₁ s₂ : Db} {a b id now loser id' now' : Nat}
    (hrun : WorkflowRun .empty s) (hmerge : mergeLockedPair session s a b id now = .ok s₁)
    (hundo : undoMerge session' s₁ loser id' now' = .ok s₂) (hloser : loser = a ∨ loser = b) :
    coverage s₂ month ratio = coverage s month ratio ∧ s₂.stateOf loser = s.stateOf loser := by
  obtain ⟨hfree, row, ha, -, hexec⟩ := mergeLockedPair_exec hmerge
  obtain ⟨c, hc, rfl, undo, hundoes, hexec'⟩ := undoMerge_exec hundo
  obtain ⟨st, -, -, -, -, -, -, -, -, hm₁⟩ := merge_ok ha (insertMerge_of_exec hexec)
  -- the standing merge of the loser is the one just made
  obtain rfl : c = row := by
    obtain ⟨hmem, hcmerge, hnot⟩ := mem_current.1 hc
    rw [hm₁] at hmem hnot
    rcases List.mem_append.1 hmem with hold | hnew
    · obtain ⟨hna, hnb⟩ := hfree c (mem_current.2 ⟨hold, hcmerge, fun u hu => hnot u (List.mem_append_left _ hu)⟩)
      exact absurd hloser (not_or.2 ⟨hna, hnb⟩)
    · exact List.mem_singleton.1 hnew
  have hfigures : _ ∧ _ ∧ (_ → coverage _ month ratio = coverage _ month ratio) :=
    undo_figures hrun.ledgered ha hexec .refl hexec' hundoes
  exact ⟨hfigures.2.2 rfl, hfigures.2.1⟩

/-- **Coverage counts each dollar once.** In every state the workflow, merges and removals lead to: the view is read
unless a sum is past `bigint`; it counts every case that is neither merged away nor removed once, in the month of
the earliest opening and the channel of the earliest notice of its group, and every filing once, with the amount of
its case; and undoing a merge brings back the figures of the unmerged cases. -/
theorem coverage_counts_once (month : Nat → Int) (ratio : Int → Int → ℚ) {s : Db} (hrun : WorkflowRun .empty s) :
    ((∃ rows, coverage s month ratio = some rows) ↔ ∀ key ∈ coverageKeys s month, Fits s month key) ∧
    (∀ rows, coverage s month ratio = some rows → CountsOnce s month rows) ∧
    (∀ d ∈ liveCases s,
      (∃ first, InGroup s d first ∧ (∀ e, InGroup s d e → first.created_at ≤ e.created_at) ∧
        (caseKey s month d).period = some (month first.created_at)) ∧
      (((∀ doc, ¬ GroupNotice s d doc) ∧ (caseKey s month d).discovered_from = none) ∨
        ∃ first, GroupNotice s d first ∧
          (∀ doc, GroupNotice s d doc → toLex (first.created_at, first.id) ≤ toLex (doc.created_at, doc.id)) ∧
          (caseKey s month d).discovered_from = first.observed_from.or first.asserted_from)) ∧
    ∀ (session session' : Session) (m u : Merge) (s₁ s₂ s₃ : Db), m.action = .merge →
      exec session s (.merge m) = .ok s₁ → WorkflowRun s₁ s₂ → exec session' s₂ (.merge u) = .ok s₃ → Undoes u m →
        coverage s₃ month ratio = coverage (withoutMerge s₃ m) month ratio ∧
          s₃.stateOf m.merged_deduction_id = s.stateOf m.merged_deduction_id ∧
          (s₂ = s₁ → coverage s₃ month ratio = coverage s month ratio) :=
  ⟨coverage_returns, fun _ h => counts_once hrun.ledgered hrun.all_filed h,
    fun _ hd => ⟨period_eq hd, discovered_from_eq hd⟩,
    fun _ _ _ _ _ _ _ ha hmerge hrun' hundo hundoes => undo_figures hrun.ledgered ha hmerge hrun' hundo hundoes⟩

/-! ## Two runs -/

theorem workflow_of_run {s : Db} (h : Run Stored .empty s) : WorkflowRun .empty s := by
  induction h with
  | refl => exact .refl
  | step _ hok hexec ih => exact ih.step hok hexec

/-- The newer of a confirmed pair merged into the older one, which is taken to an approval. -/
def mergedThenFiled : List Statement :=
  confirmedPair ++ [newerIntoOlder 1, .moveCase 0 .analyst_review, .moveCase 0 .awaiting_approval]

/-- A merged pair is filed: one deduction, opened and filed once. -/
theorem merged_pair_counted : ∃ s rows, WorkflowRun .empty s ∧ coverage s (fun t => t / 31) (fun _ _ => 0) = some rows ∧
    CountsOnce s (fun t => t / 31) rows ∧ rows.map (·.opened_cents) = [312000] ∧
      rows.map (fun row => (row.filed_count, row.filed_cents)) = [(1, 312000)] := by
  have hscript : ((script Stored approver .empty mergedThenFiled).bind fun s =>
      (recordSubmission approver s ⟨0, 0, 9⟩).toOption.bind fun s =>
        (coverage s (fun t => t / 31) (fun _ _ => 0)).map fun rows =>
          (rows.map (·.opened_cents), rows.map fun row => (row.filed_count, row.filed_cents))) =
            some ([312000], [(1, 312000)]) := by decide +kernel
  obtain ⟨s, hs, hscript⟩ := Option.bind_eq_some_iff.1 hscript
  obtain ⟨s', hs', hscript⟩ := Option.bind_eq_some_iff.1 hscript
  obtain ⟨rows, hrows, hfigures⟩ := Option.map_eq_some_iff.1 hscript
  have hfiled : recordSubmission approver s ⟨0, 0, 9⟩ = .ok s' := by
    cases hr : recordSubmission approver s ⟨0, 0, 9⟩ with
    | error reason =>
      rw [hr] at hs'
      cases hs'
    | ok s'' =>
      rw [hr] at hs'
      cases hs'
      rfl
  have hrun : WorkflowRun .empty s' := (workflow_of_run (run_of_script .refl hs)).filed hfiled
  exact ⟨s', rows, hrun, hrows, (coverage_counts_once _ _ hrun).2.1 rows hrows, (Prod.mk.inj hfigures).1,
    (Prod.mk.inj hfigures).2⟩

/-- A notice that came in on the last day of a month, of a case opened on the first day of the next. -/
def openedNextDay : List Statement :=
  [.storeDocument ⟨0, 30, some .web_upload, none⟩, .openCase ⟨0, .discovered, 312000, 31⟩, .work (.link ⟨0, 0, .notice⟩)]

/-- The case is counted in the month it was opened, not in that of its earliest notice. -/
theorem opened_after_its_notice : ∃ s, WorkflowRun .empty s ∧ ∃ d ∈ liveCases s, ∃ notice, GroupNotice s d notice ∧
    (∀ doc, GroupNotice s d doc → toLex (notice.created_at, notice.id) ≤ toLex (doc.created_at, doc.id)) ∧
    (caseKey s (fun t => t / 31) d).period ≠ some ((notice.created_at : Int) / 31) := by
  have hscript : ((script Stored approver .empty openedNextDay).map fun s =>
      ((liveCases s).map fun d => ((earliestNotice s d.id).map (·.created_at), (caseKey s (fun t => t / 31) d).period))) =
        some [(some 30, some 1)] := by decide +kernel
  obtain ⟨s, hs, hcases⟩ := Option.map_eq_some_iff.1 hscript
  obtain ⟨d, hd⟩ : ∃ d, liveCases s = [d] := by
    rw [← List.length_eq_one_iff, ← List.length_map, hcases]
    rfl
  have hmem : d ∈ liveCases s := by rw [hd]; exact List.mem_singleton_self d
  rw [hd, List.map_singleton, List.cons.injEq, Prod.mk.injEq] at hcases
  obtain ⟨notice, hnotice, htime⟩ := Option.map_eq_some_iff.1 hcases.1.1
  have hearliest := hnotice
  rw [earliestNotice, List.argmin_eq_some_iff] at hearliest
  refine ⟨s, workflow_of_run (run_of_script .refl hs), d, hmem, notice, (mem_noticesOf hmem).1 hearliest.1,
    fun doc hdoc => hearliest.2.1 doc ((mem_noticesOf hmem).2 hdoc), ?_⟩
  rw [hcases.1.2, htime]
  decide

end

end Recouple.Database.Merges
