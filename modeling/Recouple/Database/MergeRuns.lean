import Recouple.Database.Merges
import Recouple.Lib.KeyedFold

/-!
# The states runs of merges, undos and removals lead to

* **`merge_machine_sound`**: in every run that records no merge into a removed case, a case is merged exactly
  when one standing merge names it, every standing merge has a survivor that is neither merged away nor removed,
  no pair is merged twice, and an undo puts the case back in the state it was merged from.
* **`merged_into_removed`**: `merge_refusal` looks at the loser's state only, so a case can be merged into one
  that was removed before.
-/

namespace Recouple.Database.Merges
open Pipeline (CaseState)

/-! ## Standing merges -/

section
variable {merges : List Merge}

theorem mem_current {m : Merge} :
    m ∈ current merges ↔ m ∈ merges ∧ m.action = .merge ∧ ∀ u ∈ merges, ¬ Undoes u m := by
  simp [current]

/-- A merge of a pair that was never undone joins the standing ones. -/
theorem current_merge {m : Merge} (hm : m.action = .merge) (hnot : ∀ u ∈ merges, ¬ Undoes u m) :
    current (merges ++ [m]) = current merges ++ [m] := by
  have hself : ∀ m', ¬ Undoes m m' := fun m' h => by
    rw [h.1] at hm
    cases hm
  have hold : ∀ m', (∀ u ∈ merges ++ [m], ¬ Undoes u m') ↔ ∀ u ∈ merges, ¬ Undoes u m' := fun m' => by
    simp [or_imp, forall_and, hself]
  simp only [current, List.filter_append, hold]
  rw [List.append_cancel_left_eq]
  simpa [hm] using hnot

/-- An undo takes its own merge from the standing ones. -/
theorem current_undo {u : Merge} (hu : u.action = .unmerge) :
    current (merges ++ [u]) = (current merges).filter fun m => ¬ Undoes u m := by
  have hold : ∀ m', (∀ v ∈ merges ++ [u], ¬ Undoes v m') ↔ (∀ v ∈ merges, ¬ Undoes v m') ∧ ¬ Undoes u m' :=
    fun m' => by simp [or_imp, forall_and]
  simp only [current, List.filter_append, hold]
  rw [List.filter_filter]
  have hself : [u].filter (fun m => decide (m.action = .merge ∧ (∀ v ∈ merges, ¬ Undoes v m) ∧ ¬ Undoes u m)) = [] := by
    simp [hu]
  rw [hself, List.append_nil]
  refine List.filter_congr fun m _ => ?_
  rw [← Bool.decide_and, decide_eq_decide]
  tauto

theorem SamePair.symm {m m' : Merge} (h : SamePair m m') : SamePair m' m :=
  h.elim (fun h => .inl ⟨h.1.symm, h.2.symm⟩) fun h => .inr ⟨h.2.symm, h.1.symm⟩

/-- Every pair has at most one merge and one undo. -/
def OncePerPair (merges : List Merge) : Prop :=
  merges.Pairwise fun m m' => m.action = m'.action → ¬ SamePair m m'

theorem OncePerPair.eq {m m' : Merge} (h : OncePerPair merges) (hm : m ∈ merges) (hm' : m' ∈ merges)
    (ha : m.action = m'.action) (hp : SamePair m m') : m = m' := by
  by_contra hne
  have hsymm : Std.Symm fun m m' : Merge => m.action = m'.action → ¬ SamePair m m' :=
    ⟨fun _ _ h ha hp => h ha.symm hp.symm⟩
  exact h.forall hm hm' hne ha hp

end

/-! ## What a statement does -/

section
variable {s s' : Db} {session : Session}

theorem stateOf_withState (s : Db) (id id' : Nat) (state : CaseState) :
    (s.withState id state).stateOf id' = if id' = id then (s.stateOf id').map fun _ => state else s.stateOf id' := by
  unfold Db.stateOf Db.find Db.withState
  have hlookup := @Rows.lookup_modify _ _ _ Deduction.id s.deductions id (fun d => { d with state := state })
    (fun _ => rfl) id'
  dsimp only
  rw [hlookup]
  split
  · rw [Option.map_map, Option.map_map]
    rfl
  · rfl

/-- What an admitted update of a case's state does. -/
theorem updateState_ok {id : Nat} {new : CaseState} (h : updateState session s id new = .ok s') :
    (s.stateOf id = none ∧ s' = s) ∨ ∃ old, s.stateOf id = some old ∧ s' = s.withState id new ∧
      mergedStateIsAProjection s id old new = .ok () ∧ removalIsGuarded s session id old new = .ok () := by
  unfold updateState at h
  cases hold : s.stateOf id with
  | none =>
    rw [hold] at h
    cases h
    exact .inl ⟨rfl, rfl⟩
  | some old =>
    rw [hold] at h
    obtain ⟨⟨⟩, hproj, h⟩ := KeyedFold.bind_ok.1 h
    obtain ⟨⟨⟩, hguard, h⟩ := KeyedFold.bind_ok.1 h
    cases h
    exact .inr ⟨old, rfl, rfl, hproj, hguard⟩

/-- The trigger on `merged` lets a state through only where the ledger has the move. -/
theorem projection_ok {id : Nat} {old new : CaseState} (h : mergedStateIsAProjection s id old new = .ok ()) :
    new = old ∨
      (new = .merged ∧ ∃ c ∈ current s.deduction_merges, c.merged_deduction_id = id ∧ c.state_before = some old) ∨
      (new ≠ .merged ∧ old = .merged ∧ ∀ c ∈ current s.deduction_merges, c.merged_deduction_id ≠ id) ∨
      (new ≠ .merged ∧ old ≠ .merged) := by
  unfold mergedStateIsAProjection at h
  split_ifs at h with h1 h2 h3 h4 h5 h6
  · exact .inl h1
  · exact .inr (.inl ⟨h2, h3⟩)
  · exact .inr (.inr (.inl ⟨h2, h4, fun c hc he => h5 ⟨c, hc, he⟩⟩))
  · exact .inr (.inr (.inr ⟨h2, h4⟩))

theorem guard_ok {id : Nat} {old new : CaseState} (h : removalIsGuarded s session id old new = .ok ()) :
    new = old ∨ (old ≠ .removed ∧
      (new = .removed → ∀ c ∈ current s.deduction_merges, c.surviving_deduction_id ≠ id)) := by
  unfold removalIsGuarded at h
  split_ifs at h with h1 h2 h3 h4 h5 h6 h7
  · exact .inl h1
  · exact .inr ⟨h2, fun _ c hc he => h6 ⟨c, hc, he⟩⟩
  · exact .inr ⟨h2, fun hn => absurd hn h3⟩

@[simp] theorem stateOf_withEvent (s : Db) (deduction_id : Nat) (type : EventType) (of : Option Nat) (id : Nat) :
    (s.withEvent deduction_id type of).stateOf id = s.stateOf id := rfl

theorem ids_withState (s : Db) (id : Nat) (state : CaseState) :
    (s.withState id state).deductions.map (·.id) = s.deductions.map (·.id) := Rows.keys_modify fun _ => rfl

/-- What `merge_refusal` lets through. -/
theorem mergeRefusal_none {a b survivor : Nat} (h : mergeRefusal s a b = none)
    (hs : mergeSurvivor s a b = some survivor) :
    a ≠ b ∧ s.find a ≠ none ∧ s.find b ≠ none ∧
      (∀ c ∈ current s.deduction_merges, c.merged_deduction_id ≠ a ∧ c.merged_deduction_id ≠ b) ∧
      (∀ c ∈ current s.deduction_merges, c.surviving_deduction_id ≠ if survivor = a then b else a) ∧
      ∃ st ∈ beforeFiling, s.stateOf (if survivor = a then b else a) = some st := by
  unfold mergeRefusal at h
  rw [hs] at h
  dsimp only at h
  generalize (if survivor = a then b else a) = loser at h ⊢
  split_ifs at h with h1 h2 h3 h4 h5 h6 h7
  rw [not_or, not_or] at h1
  obtain ⟨st, hst⟩ := not_forall.1 h6
  obtain ⟨hstate, hmem⟩ := Classical.not_imp.1 hst
  exact ⟨h1.1, h1.2.1, h1.2.2, fun c hc => ⟨fun he => h3 ⟨c, hc, .inl he⟩, fun he => h3 ⟨c, hc, .inr he⟩⟩,
    fun c hc he => h5 ⟨c, hc, he⟩, st, not_not.1 hmem, hstate⟩

/-- What an admitted row of `deduction_merges` leads to. -/
theorem insertMerge_ok {new : Merge} (h : insertMerge session s new = .ok s') :
    checkDeductionMerge s session new = .ok () ∧ new.Shaped ∧
      (∀ m ∈ s.deduction_merges, m.action = new.action → ¬ SamePair m new) ∧
      projectDeductionMerge session { s with deduction_merges := s.deduction_merges ++ [new] } new = .ok s' := by
  unfold insertMerge at h
  obtain ⟨⟨⟩, hcheck, h⟩ := KeyedFold.bind_ok.1 h
  split_ifs at h with h1 h2 h3
  exact ⟨hcheck, h1, fun m hm ha hp => h2 ⟨m, hm, .inr ⟨ha, hp⟩⟩, h⟩

theorem checkDeductionMerge_merge {new : Merge} (ha : new.action = .merge)
    (h : checkDeductionMerge s session new = .ok ()) :
    mergeRefusal s new.merged_deduction_id new.surviving_deduction_id = none ∧
      mergeSurvivor s new.merged_deduction_id new.surviving_deduction_id = some new.surviving_deduction_id ∧
      new.state_before = s.stateOf new.merged_deduction_id := by
  unfold checkDeductionMerge at h
  rw [ha] at h
  dsimp only at h
  cases hr : mergeRefusal s new.merged_deduction_id new.surviving_deduction_id with
  | some reason =>
    rw [hr] at h
    split_ifs at h
  | none =>
    rw [hr] at h
    dsimp only at h
    split_ifs at h with h1 h2 h3 h4 h5
    exact ⟨rfl, not_not.1 h2, not_not.1 h3⟩

theorem checkDeductionMerge_undo {new : Merge} (ha : new.action = .unmerge)
    (h : checkDeductionMerge s session new = .ok ()) :
    ∃ c ∈ current s.deduction_merges, Undoes new c := by
  unfold checkDeductionMerge at h
  rw [ha] at h
  dsimp only at h
  split_ifs at h with h1 h2
  obtain ⟨c, hc, hm, hs⟩ := h2
  exact ⟨c, hc, ha, hm.symm, hs.symm⟩

/-- What an admitted statement does to the cases and the merges. -/
theorem exec_ok {statement : Statement} (h : exec session s statement = .ok s') :
    (s'.deductions = s.deductions ∧ s'.deduction_merges = s.deduction_merges ∧ ∀ row, statement ≠ .merge row) ∨
    (∃ row, statement = .openCase row ∧ row.state ≠ .merged ∧ s.find row.id = none ∧
      s' = { s with deductions := s.deductions ++ [row] }) ∨
    (∃ id new, statement = .moveCase id new ∧ updateState session s id new = .ok s') ∨
    ∃ row, statement = .merge row ∧ insertMerge session s row = .ok s' := by
  unfold exec at h
  split_ifs at h with hw
  cases statement with
  | openCase row =>
    dsimp only at h
    split_ifs at h with h1 h2
    cases h
    rw [not_or, not_not] at h2
    exact .inr (.inl ⟨row, rfl, h1, h2.1, rfl⟩)
  | recordEvent id type of =>
    dsimp only at h
    split_ifs at h with h1
    cases h
    exact .inl ⟨rfl, rfl, fun row => by simp⟩
  | moveCase id new => exact .inr (.inr (.inl ⟨id, new, rfl, h⟩))
  | merge row => exact .inr (.inr (.inr ⟨row, rfl, h⟩))
  | work row =>
    dsimp only at h
    split_ifs at h with h1 h2
    cases h
    refine .inl ⟨?_, ?_, fun row => by simp⟩ <;> cases row <;> rfl
  | storeDocument row =>
    cases h
    exact .inl ⟨rfl, rfl, fun row => by simp⟩

end

/-! ## The invariant -/

/-- What the triggers keep, whatever is merged into what. -/
structure Ledgered (s : Db) : Prop where
  ids : (s.deductions.map (·.id)).Nodup
  once : OncePerPair s.deduction_merges
  undone : ∀ u ∈ s.deduction_merges, u.action = .unmerge → ∃ m ∈ s.deduction_merges, m.action = .merge ∧ Undoes u m
  before : ∀ m ∈ s.deduction_merges, m.action = .merge → ∃ st ∈ beforeFiling, m.state_before = some st
  named : ∀ m ∈ s.deduction_merges, s.stateOf m.merged_deduction_id ≠ none ∧ s.stateOf m.surviving_deduction_id ≠ none
  projected : ∀ id st, s.stateOf id = some st →
    ((current s.deduction_merges).filter fun m => m.merged_deduction_id = id).length = if st = .merged then 1 else 0
  apart : ∀ m ∈ current s.deduction_merges, ∀ m' ∈ current s.deduction_merges,
    m.surviving_deduction_id ≠ m'.merged_deduction_id

/-- A case that no row of the ledger names has no standing merge. -/
theorem Ledgered.unnamed {s : Db} (h : Ledgered s) {id : Nat} (hid : s.stateOf id = none) {m : Merge}
    (hm : m ∈ current s.deduction_merges) : m.merged_deduction_id ≠ id ∧ m.surviving_deduction_id ≠ id := by
  obtain ⟨h1, h2⟩ := h.named m (mem_current.1 hm).1
  exact ⟨fun he => h1 (he ▸ hid), fun he => h2 (he ▸ hid)⟩

/-- A case with a standing merge is merged, and no other is. -/
theorem Ledgered.merged_iff {s : Db} (h : Ledgered s) {id : Nat} {st : CaseState} (hid : s.stateOf id = some st) :
    st = .merged ↔ ∃ m ∈ current s.deduction_merges, m.merged_deduction_id = id := by
  have hcount := h.projected id st hid
  constructor
  · intro hst
    rw [if_pos hst] at hcount
    obtain ⟨m, hm⟩ := List.exists_mem_of_length_pos (by rw [hcount]; exact Nat.one_pos)
    rw [List.mem_filter] at hm
    exact ⟨m, hm.1, by simpa using hm.2⟩
  · rintro ⟨m, hm, hid⟩
    by_contra hst
    rw [if_neg hst, List.length_eq_zero_iff, List.filter_eq_nil_iff] at hcount
    exact hcount m hm (by simpa using hid)

/-- Only what the cases' states and the ledger are matters. -/
theorem Ledgered.congr {s s' : Db} (h : Ledgered s) (hd : s'.deductions = s.deductions)
    (hm : s'.deduction_merges = s.deduction_merges) : Ledgered s' := by
  have hstate : ∀ id, s'.stateOf id = s.stateOf id := fun id => by rw [Db.stateOf, Db.find, hd]; rfl
  constructor
  · rw [hd]; exact h.ids
  · rw [hm]; exact h.once
  · rw [hm]; exact h.undone
  · rw [hm]; exact h.before
  · simp only [hm, hstate]; exact h.named
  · simp only [hm, hstate]; exact h.projected
  · rw [hm]; exact h.apart

theorem ledgered_empty : Ledgered .empty where
  ids := .nil
  once := .nil
  undone _ h := absurd h List.not_mem_nil
  before _ h := absurd h List.not_mem_nil
  named _ h := absurd h List.not_mem_nil
  projected _ _ h := by cases h
  apart _ h := absurd h List.not_mem_nil

theorem Ledgered.openCase {s : Db} (h : Ledgered s) {row : Deduction} (hnew : s.find row.id = none)
    (hst : row.state ≠ .merged) : Ledgered { s with deductions := s.deductions ++ [row] } := by
  have hstate : ∀ id, ({ s with deductions := s.deductions ++ [row] } : Db).stateOf id =
      if id = row.id then some row.state else s.stateOf id := by
    intro id
    unfold Db.stateOf Db.find
    rw [Rows.lookup_insert hnew, apply_ite (Option.map _)]
    rfl
  have hnone : s.stateOf row.id = none := by rw [Db.stateOf, hnew]; rfl
  have hkeep : ∀ id, s.stateOf id ≠ none → (if id = row.id then some row.state else s.stateOf id) = s.stateOf id :=
    fun id hid => if_neg (by rintro rfl; exact hid hnone)
  constructor
  · exact Rows.nodup_insert h.ids hnew
  · exact h.once
  · exact h.undone
  · exact h.before
  · intro m hm
    obtain ⟨h1, h2⟩ := h.named m hm
    rw [hstate, hstate, hkeep _ h1, hkeep _ h2]
    exact ⟨h1, h2⟩
  · intro id st hid
    rw [hstate] at hid
    by_cases he : id = row.id
    · rw [if_pos he] at hid
      cases hid
      rw [if_neg hst, List.length_eq_zero_iff, List.filter_eq_nil_iff]
      exact fun m hm => by simpa using fun hm' => (h.unnamed hnone hm).1 (hm'.trans he)
    · rw [if_neg he] at hid
      exact h.projected id st hid
  · exact h.apart

/-- A state may move where the ledger says nothing of the case. -/
theorem Ledgered.withState {s : Db} (h : Ledgered s) {id : Nat} {old new : CaseState} (hid : s.stateOf id = some old)
    (hold : old ≠ .merged) (hnew : new ≠ .merged) : Ledgered (s.withState id new) where
  ids := by rw [ids_withState]; exact h.ids
  once := h.once
  undone := h.undone
  before := h.before
  named m hm := by
    obtain ⟨h1, h2⟩ := h.named m hm
    rw [stateOf_withState, stateOf_withState]
    constructor <;> split <;> simp_all
  projected id' st hst := by
    rw [stateOf_withState] at hst
    by_cases he : id' = id
    · subst he
      rw [if_pos rfl, hid, Option.map_some, Option.some.injEq] at hst
      subst hst
      have hcount := h.projected id' old hid
      rw [if_neg hold] at hcount
      rw [if_neg hnew]
      exact hcount
    · rw [if_neg he] at hst
      exact h.projected id' st hst
  apart := h.apart

theorem Ledgered.withState_self {s : Db} (h : Ledgered s) {id : Nat} {st : CaseState} (hid : s.stateOf id = some st) :
    s.withState id st = s := by
  unfold Db.withState
  congr 1
  refine Rows.modify_self fun d hd he => ?_
  have hfind : s.find id = some d := (Rows.lookup_eq_some h.ids).2 ⟨hd, he⟩
  rw [Db.stateOf, hfind, Option.map_some, Option.some.injEq] at hid
  rw [← hid]

/-! ## Each statement keeps it -/

section
variable {s s' : Db} {session : Session}

theorem not_merged_of_beforeFiling {st : CaseState} (h : st ∈ beforeFiling) : st ≠ .merged ∧ st ≠ .removed := by
  constructor <;>
  · rintro rfl
    revert h
    decide

theorem Ledgered.moveCase (h : Ledgered s) {id : Nat} {new : CaseState} (hok : updateState session s id new = .ok s') :
    Ledgered s' := by
  obtain ⟨-, rfl⟩ | ⟨old, hid, rfl, hproj, hguard⟩ := updateState_ok hok
  · exact h
  · have hmerged := h.merged_iff hid
    obtain rfl | ⟨-, c, hc, hcid, hbefore⟩ | ⟨-, rfl, hnone⟩ | ⟨hnew, hold⟩ := projection_ok hproj
    · rwa [h.withState_self hid]
    · -- a case with a standing merge is merged already, and no merge is from `merged`
      obtain rfl := hmerged.2 ⟨c, hc, hcid⟩
      obtain ⟨st, hst, hst'⟩ := h.before c (mem_current.1 hc).1 (mem_current.1 hc).2.1
      rw [hbefore, Option.some.injEq] at hst'
      exact absurd hst'.symm (not_merged_of_beforeFiling hst).1
    · obtain ⟨c, hc, hcid⟩ := hmerged.1 rfl
      exact absurd hcid (hnone c hc)
    · obtain rfl | - := guard_ok hguard
      · rwa [h.withState_self hid]
      · exact h.withState hid hold hnew

/-- What an admitted merge leads to. -/
theorem merge_ok {new : Merge} (ha : new.action = .merge) (hok : insertMerge session s new = .ok s') :
    ∃ st ∈ beforeFiling, s.stateOf new.merged_deduction_id = some st ∧ new.state_before = some st ∧
      s.stateOf new.surviving_deduction_id ≠ none ∧
      new.merged_deduction_id ≠ new.surviving_deduction_id ∧
      (∀ c ∈ current s.deduction_merges, c.merged_deduction_id ≠ new.surviving_deduction_id ∧
        c.surviving_deduction_id ≠ new.merged_deduction_id) ∧
      (∀ m ∈ s.deduction_merges, m.action = .merge → ¬ SamePair m new) ∧
      s'.deductions = (s.withState new.merged_deduction_id .merged).deductions ∧
      s'.deduction_merges = s.deduction_merges ++ [new] := by
  obtain ⟨hcheck, -, honce, hproj⟩ := insertMerge_ok hok
  obtain ⟨hrefusal, hsurvivor, hbefore⟩ := checkDeductionMerge_merge ha hcheck
  obtain ⟨hne, -, hfind, hmerged, hsurviving, st, hst, hstate⟩ := mergeRefusal_none hrefusal hsurvivor
  rw [if_neg (Ne.symm hne)] at hsurviving hstate
  have hsurv : s.stateOf new.surviving_deduction_id ≠ none := by
    rw [Db.stateOf, ne_eq, Option.map_eq_none_iff]
    exact hfind
  rw [ha] at honce
  unfold projectDeductionMerge at hproj
  rw [ha] at hproj
  obtain ⟨s₂, hupdate, hproj⟩ := KeyedFold.bind_ok.1 hproj
  cases hproj
  obtain ⟨hnone, -⟩ | ⟨old, -, rfl, -⟩ := updateState_ok hupdate
  · have hnone : s.stateOf new.merged_deduction_id = none := hnone
    rw [hstate] at hnone
    cases hnone
  · exact ⟨st, hst, hstate, by rw [hbefore, hstate], hsurv, hne, fun c hc => ⟨(hmerged c hc).2, hsurviving c hc⟩,
      honce, rfl, rfl⟩

theorem Ledgered.merge (h : Ledgered s) {new : Merge} (ha : new.action = .merge)
    (hok : insertMerge session s new = .ok s') : Ledgered s' := by
  obtain ⟨st, hst, hstate, hbefore, hsurv, hne, happart, honce, hd, hm⟩ := merge_ok ha hok
  have hcurrent : current s'.deduction_merges = current s.deduction_merges ++ [new] := by
    rw [hm]
    refine current_merge ha fun u hu hundo => ?_
    obtain ⟨m, hmem, hmerge, hundo'⟩ := h.undone u hu hundo.1
    exact honce m hmem hmerge (.inl ⟨hundo'.2.1.symm.trans hundo.2.1, hundo'.2.2.symm.trans hundo.2.2⟩)
  have hstate' : ∀ id, s'.stateOf id = if id = new.merged_deduction_id then (s.stateOf id).map fun _ => .merged
      else s.stateOf id := fun id => by
    rw [← stateOf_withState, Db.stateOf, Db.find, hd]
    rfl
  have hother : ∀ {id}, id ≠ new.merged_deduction_id → s'.stateOf id = s.stateOf id := fun hid => by
    rw [hstate', if_neg hid]
  have hnamed : ∀ id, s.stateOf id ≠ none → s'.stateOf id ≠ none := fun id hid => by
    rw [hstate']
    split <;> simp_all
  constructor
  · rw [hd, ids_withState]
    exact h.ids
  · rw [hm]
    refine List.pairwise_append.2 ⟨h.once, List.pairwise_singleton _ _, fun m hmem m' hm' hact => ?_⟩
    rw [List.mem_singleton.1 hm'] at hact ⊢
    exact honce m hmem (hact.trans ha)
  · rw [hm]
    intro u hu hundo
    rcases List.mem_append.1 hu with hu | hu
    · obtain ⟨m, hmem, hmerge⟩ := h.undone u hu hundo
      exact ⟨m, List.mem_append_left _ hmem, hmerge⟩
    · rw [List.mem_singleton.1 hu, ha] at hundo
      cases hundo
  · rw [hm]
    intro m hmem hmerge
    rcases List.mem_append.1 hmem with hmem | hmem
    · exact h.before m hmem hmerge
    · rw [List.mem_singleton.1 hmem]
      exact ⟨st, hst, hbefore⟩
  · rw [hm]
    intro m hmem
    rcases List.mem_append.1 hmem with hmem | hmem
    · exact ⟨hnamed _ (h.named m hmem).1, hnamed _ (h.named m hmem).2⟩
    · rw [List.mem_singleton.1 hmem]
      exact ⟨hnamed _ (by rw [hstate]; simp), hnamed _ hsurv⟩
  · intro id st' hid
    rw [hcurrent, List.filter_append, List.length_append]
    by_cases he : id = new.merged_deduction_id
    · subst he
      rw [hstate', if_pos rfl, hstate, Option.map_some, Option.some.injEq] at hid
      have hcount := h.projected _ _ hstate
      rw [if_neg (not_merged_of_beforeFiling hst).1] at hcount
      rw [hcount, if_pos hid.symm]
      simp
    · rw [hother he] at hid
      rw [h.projected id st' hid, List.filter_cons_of_neg (by simpa using Ne.symm he)]
      rfl
  · rw [hcurrent]
    intro m hmem m' hmem'
    rcases List.mem_append.1 hmem with hmem | hmem <;> rcases List.mem_append.1 hmem' with hmem' | hmem'
    · exact h.apart m hmem m' hmem'
    · rw [List.mem_singleton.1 hmem']
      exact (happart m hmem).2
    · rw [List.mem_singleton.1 hmem]
      exact (happart m' hmem').1.symm
    · rw [List.mem_singleton.1 hmem, List.mem_singleton.1 hmem']
      exact hne.symm

/-- What an admitted undo leads to. -/
theorem undo_ok (h : Ledgered s) {new : Merge} (ha : new.action = .unmerge) (hok : insertMerge session s new = .ok s') :
    ∃ c ∈ current s.deduction_merges, Undoes new c ∧ (∀ m ∈ s.deduction_merges, m.action = .unmerge → ¬ SamePair m new) ∧
      ∃ st ∈ beforeFiling, c.state_before = some st ∧ s.stateOf new.merged_deduction_id = some .merged ∧
      s'.deductions = (s.withState new.merged_deduction_id st).deductions ∧
      s'.deduction_merges = s.deduction_merges ++ [new] := by
  obtain ⟨hcheck, -, honce, hproj⟩ := insertMerge_ok hok
  obtain ⟨c, hc, hundoes⟩ := checkDeductionMerge_undo ha hcheck
  obtain ⟨hmem, hmerge, -⟩ := mem_current.1 hc
  rw [ha] at honce
  obtain ⟨st, hst, hbefore⟩ := h.before c hmem hmerge
  obtain ⟨old, hold⟩ := Option.ne_none_iff_exists'.1 (h.named c hmem).1
  obtain rfl := (h.merged_iff hold).2 ⟨c, hc, rfl⟩
  rw [← hundoes.2.1] at hold
  -- the only merge of the pair is the standing one
  have hfind : (s.deduction_merges ++ [new]).find? (fun m => m.action = .merge ∧ Undoes new m) = some c := by
    cases hf : (s.deduction_merges ++ [new]).find? fun m => m.action = .merge ∧ Undoes new m with
    | none => exact absurd (List.find?_eq_none.1 hf c (List.mem_append_left _ hmem)) (by simp [hmerge, hundoes])
    | some m =>
      obtain ⟨hm, hundoes'⟩ : m.action = .merge ∧ Undoes new m := by simpa using List.find?_some hf
      rcases List.mem_append.1 (List.mem_of_find?_eq_some hf) with hmem' | hmem'
      · rw [h.once.eq hmem' hmem (hm.trans hmerge.symm)
          (.inl ⟨hundoes'.2.1.symm.trans hundoes.2.1, hundoes'.2.2.symm.trans hundoes.2.2⟩)]
      · rw [List.mem_singleton.1 hmem', ha] at hm
        cases hm
  unfold projectDeductionMerge at hproj
  rw [ha] at hproj
  dsimp only at hproj
  rw [hfind, Option.bind_some, hbefore] at hproj
  obtain ⟨s₂, hupdate, hproj⟩ := KeyedFold.bind_ok.1 hproj
  cases hproj
  obtain ⟨hnone, -⟩ | ⟨old, -, rfl, -⟩ := updateState_ok hupdate
  · have hnone : s.stateOf new.merged_deduction_id = none := hnone
    rw [hold] at hnone
    cases hnone
  · exact ⟨c, hc, hundoes, honce, st, hst, hbefore, hold, rfl, rfl⟩

theorem Ledgered.undo (h : Ledgered s) {new : Merge} (ha : new.action = .unmerge)
    (hok : insertMerge session s new = .ok s') : Ledgered s' := by
  obtain ⟨c, hc, hundoes, honce, st, hst, hbefore, hstate, hd, hm⟩ := undo_ok h ha hok
  obtain ⟨hcmem, hcmerge, -⟩ := mem_current.1 hc
  have hcurrent : current s'.deduction_merges = (current s.deduction_merges).filter fun m => ¬ Undoes new m := by
    rw [hm, current_undo ha]
  have hsub : ∀ m ∈ current s'.deduction_merges, m ∈ current s.deduction_merges ∧ ¬ Undoes new m := fun m hmem => by
    rw [hcurrent, List.mem_filter] at hmem
    exact ⟨hmem.1, by simpa using hmem.2⟩
  have hstate' : ∀ id, s'.stateOf id = if id = new.merged_deduction_id then (s.stateOf id).map fun _ => st
      else s.stateOf id := fun id => by
    rw [← stateOf_withState, Db.stateOf, Db.find, hd]
    rfl
  have hother : ∀ {id}, id ≠ new.merged_deduction_id → s'.stateOf id = s.stateOf id := fun hid => by
    rw [hstate', if_neg hid]
  have hnamed : ∀ id, s.stateOf id ≠ none → s'.stateOf id ≠ none := fun id hid => by
    rw [hstate']
    split <;> simp_all
  constructor
  · rw [hd, ids_withState]
    exact h.ids
  · rw [hm]
    refine List.pairwise_append.2 ⟨h.once, List.pairwise_singleton _ _, fun m hmem m' hm' hact => ?_⟩
    rw [List.mem_singleton.1 hm'] at hact ⊢
    exact honce m hmem (hact.trans ha)
  · rw [hm]
    intro u hu hundo
    rcases List.mem_append.1 hu with hu | hu
    · obtain ⟨m, hmem, hmerge⟩ := h.undone u hu hundo
      exact ⟨m, List.mem_append_left _ hmem, hmerge⟩
    · rw [List.mem_singleton.1 hu]
      exact ⟨c, List.mem_append_left _ hcmem, hcmerge, hundoes⟩
  · rw [hm]
    intro m hmem hmerge
    rcases List.mem_append.1 hmem with hmem | hmem
    · exact h.before m hmem hmerge
    · rw [List.mem_singleton.1 hmem, ha] at hmerge
      cases hmerge
  · rw [hm]
    intro m hmem
    rcases List.mem_append.1 hmem with hmem | hmem
    · exact ⟨hnamed _ (h.named m hmem).1, hnamed _ (h.named m hmem).2⟩
    · rw [List.mem_singleton.1 hmem, hundoes.2.1, hundoes.2.2]
      exact ⟨hnamed _ (h.named c hcmem).1, hnamed _ (h.named c hcmem).2⟩
  · intro id st' hid
    rw [hcurrent, List.filter_filter]
    by_cases he : id = new.merged_deduction_id
    · subst he
      rw [hstate', if_pos rfl, hstate, Option.map_some, Option.some.injEq] at hid
      subst hid
      rw [if_neg (not_merged_of_beforeFiling hst).1, List.length_eq_zero_iff, List.filter_eq_nil_iff]
      intro m hmem hboth
      obtain ⟨hid, hnot⟩ : m.merged_deduction_id = new.merged_deduction_id ∧ ¬ Undoes new m := by
        simpa [and_comm] using hboth
      -- only one standing merge names the case
      have hcount := h.projected _ _ hstate
      rw [if_pos rfl, List.length_eq_one_iff] at hcount
      obtain ⟨x, hx⟩ := hcount
      have hmx : m ∈ [x] := hx ▸ List.mem_filter.2 ⟨hmem, by simpa using hid⟩
      have hcx : c ∈ [x] := hx ▸ List.mem_filter.2 ⟨hc, by simpa using hundoes.2.1.symm⟩
      rw [List.mem_singleton.1 hmx, ← List.mem_singleton.1 hcx] at hnot
      exact hnot hundoes
    · rw [hother he] at hid
      rw [← h.projected id st' hid]
      refine congrArg _ (List.filter_congr fun m _ => ?_)
      rw [← Bool.decide_and, decide_eq_decide]
      refine ⟨And.left, fun hm' => ⟨hm', fun hundo => he ?_⟩⟩
      rw [← hm', hundo.2.1]
  · exact fun m hmem m' hmem' => h.apart m (hsub m hmem).1 m' (hsub m' hmem').1

/-- **One step.** -/
theorem Ledgered.exec (h : Ledgered s) {statement : Statement} (hexec : exec session s statement = .ok s') :
    Ledgered s' := by
  obtain ⟨hd, hm, -⟩ | ⟨row, rfl, hst, hnew, rfl⟩ | ⟨id, new, rfl, hmove⟩ | ⟨row, rfl, hinsert⟩ := exec_ok hexec
  · exact h.congr hd hm
  · exact h.openCase hnew hst
  · exact h.moveCase hmove
  · cases ha : row.action with
    | merge => exact h.merge ha hinsert
    | unmerge => exact h.undo ha hinsert

theorem Ledgered.run (h : Ledgered s) {ok : Db → Statement → Prop} (hrun : Run ok s s') : Ledgered s' := by
  induction hrun with
  | refl => exact h
  | step _ _ hexec ih => exact ih.exec hexec

/-! ## Survivors that are there -/

/-- No case is merged into one that is removed. -/
def Present (s : Db) : Prop := ∀ m ∈ current s.deduction_merges, s.stateOf m.surviving_deduction_id ≠ some .removed

/-- A state moves to `removed` only where nothing is merged into the case. -/
theorem Present.updateState (h : Present s) {id : Nat} {new : CaseState} (hok : updateState session s id new = .ok s') :
    Present s' := by
  obtain ⟨-, rfl⟩ | ⟨old, hid, rfl, -, hguard⟩ := updateState_ok hok
  · exact h
  · intro m hm
    rw [stateOf_withState]
    by_cases he : m.surviving_deduction_id = id
    · rw [if_pos he, he, hid, Option.map_some]
      intro hst
      obtain rfl | ⟨-, hremoved⟩ := guard_ok hguard
      · exact h m hm (by rw [he, hid]; exact hst)
      · exact hremoved (Option.some.inj hst) m hm he
    · rw [if_neg he]
      exact h m hm

theorem Present.exec (hl : Ledgered s) (h : Present s) {statement : Statement} (hok : IntoPresent s statement)
    (hexec : Merges.exec session s statement = .ok s') : Present s' := by
  have hkeep : ∀ {id st}, s'.deductions = (s.withState id st).deductions → ∀ {id'}, id' ≠ id →
      s'.stateOf id' = s.stateOf id' := fun hd _ hne => by
    rw [Db.stateOf, Db.find, hd, ← Db.find, ← Db.stateOf, stateOf_withState, if_neg hne]
  obtain ⟨hd, hm, -⟩ | ⟨row, rfl, -, hnew, rfl⟩ | ⟨id, new, rfl, hmove⟩ | ⟨row, rfl, hinsert⟩ := exec_ok hexec
  · intro m hmem
    rw [Db.stateOf, Db.find, hd]
    exact h m (hm ▸ hmem)
  · intro m hmem
    have hne : m.surviving_deduction_id ≠ row.id := fun he => (hl.named m (mem_current.1 hmem).1).2 (by
      rw [he, Db.stateOf, hnew]
      rfl)
    rw [Db.stateOf, Db.find, Rows.lookup_insert hnew, if_neg hne]
    exact h m hmem
  · exact h.updateState hmove
  · cases ha : row.action with
    | merge =>
      obtain ⟨st, hst, hstate, hbefore, hsurv, hne, happart, honce, hd, hm⟩ := merge_ok ha hinsert
      intro m hmem
      rw [hm] at hmem
      obtain ⟨hmem, hmerge, hnot⟩ := mem_current.1 hmem
      rcases List.mem_append.1 hmem with hold | hnew
      · have hcur : m ∈ current s.deduction_merges :=
          mem_current.2 ⟨hold, hmerge, fun u hu => hnot u (List.mem_append_left _ hu)⟩
        rw [hkeep hd (happart m hcur).2]
        exact h m hcur
      · rw [List.mem_singleton.1 hnew, hkeep hd hne.symm]
        exact hok ha
    | unmerge =>
      obtain ⟨c, hc, hundoes, honce, st, hst, hbefore, hstate, hd, hm⟩ := undo_ok hl ha hinsert
      intro m hmem
      rw [hm, current_undo ha] at hmem
      have hcur := (List.mem_filter.1 hmem).1
      rw [hkeep hd (hundoes.2.1 ▸ hl.apart m hcur c hc)]
      exact h m hcur

/-- What the triggers keep where nothing is merged into a removed case. -/
structure Sound (s : Db) : Prop extends Ledgered s where
  present : Present s

theorem sound_empty : Sound .empty := ⟨ledgered_empty, fun _ h => absurd h List.not_mem_nil⟩

theorem Sound.run (h : Sound s) (hrun : Run IntoPresent s s') : Sound s' := by
  induction hrun with
  | refl => exact h
  | step _ hok hexec ih => exact ⟨ih.toLedgered.exec hexec, ih.present.exec ih.toLedgered hok hexec⟩

theorem updateState_merges {id : Nat} {new : CaseState} (h : updateState session s id new = .ok s') :
    s'.deduction_merges = s.deduction_merges := by
  obtain ⟨-, rfl⟩ | ⟨old, -, rfl, -⟩ := updateState_ok h <;> rfl

/-- A row is added to the ledger by its own insert. -/
theorem exec_merges {statement : Statement} (h : Merges.exec session s statement = .ok s') :
    s'.deduction_merges = s.deduction_merges ∨
      ∃ row, statement = .merge row ∧ s'.deduction_merges = s.deduction_merges ++ [row] := by
  obtain ⟨-, hm, -⟩ | ⟨row, -, -, -, rfl⟩ | ⟨id, new, -, hmove⟩ | ⟨row, rfl, hinsert⟩ := exec_ok h
  · exact .inl hm
  · exact .inl rfl
  · exact .inl (updateState_merges hmove)
  · refine .inr ⟨row, rfl, ?_⟩
    obtain ⟨-, -, -, hproj⟩ := insertMerge_ok hinsert
    unfold projectDeductionMerge at hproj
    cases ha : row.action with
    | merge =>
      rw [ha] at hproj
      obtain ⟨s₂, hupdate, hproj⟩ := KeyedFold.bind_ok.1 hproj
      cases hproj
      exact updateState_merges hupdate
    | unmerge =>
      rw [ha] at hproj
      dsimp only at hproj
      split at hproj
      · cases hproj
      · obtain ⟨s₂, hupdate, hproj⟩ := KeyedFold.bind_ok.1 hproj
        cases hproj
        exact updateState_merges hupdate

/-- Rows of the ledger stay. -/
theorem merges_of_run {ok : Db → Statement → Prop} (hrun : Run ok s s') :
    ∀ m ∈ s.deduction_merges, m ∈ s'.deduction_merges := by
  induction hrun with
  | refl => exact fun m hm => hm
  | step _ _ hexec ih =>
    intro m hm
    obtain hsame | ⟨row, -, happend⟩ := exec_merges hexec
    · rw [hsame]
      exact ih m hm
    · rw [happend]
      exact List.mem_append_left _ (ih m hm)

/-- An undo puts a case back in the state it was merged from, whatever was done in between. -/
theorem undo_restores (h : Ledgered s) {m u : Merge} {s₁ s₂ s₃ : Db} {session' : Session} {ok : Db → Statement → Prop}
    (ha : m.action = .merge) (hmerge : Merges.exec session s (.merge m) = .ok s₁) (hrun : Run ok s₁ s₂)
    (hundo : Merges.exec session' s₂ (.merge u) = .ok s₃) (hundoes : Undoes u m) :
    s₃.stateOf m.merged_deduction_id = s.stateOf m.merged_deduction_id := by
  have hinsert : ∀ {s s' : Db} {session : Session} {row : Merge}, Merges.exec session s (.merge row) = .ok s' →
      insertMerge session s row = .ok s' := fun hexec => by
    unfold Merges.exec at hexec
    split_ifs at hexec
    exact hexec
  obtain ⟨st, -, hstate, hbefore, -, -, -, -, -, hm⟩ := merge_ok ha (hinsert hmerge)
  have hsound := (h.exec hmerge).run hrun
  obtain ⟨c, hc, hundoes', -, st', -, hbefore', hstate', hd, -⟩ := undo_ok hsound hundoes.1 (hinsert hundo)
  obtain ⟨hcmem, hcmerge, -⟩ := mem_current.1 hc
  have hmem := merges_of_run hrun m (by rw [hm]; simp)
  obtain rfl : c = m := hsound.once.eq hcmem hmem (hcmerge.trans ha.symm)
    (.inl ⟨hundoes'.2.1.symm.trans hundoes.2.1, hundoes'.2.2.symm.trans hundoes.2.2⟩)
  rw [hbefore, Option.some.injEq] at hbefore'
  subst hbefore'
  rw [hstate, Db.stateOf, Db.find, hd]
  change (s₂.withState u.merged_deduction_id st).stateOf c.merged_deduction_id = _
  rw [stateOf_withState, hundoes.2.1, if_pos rfl, ← hundoes.2.1, hstate']
  rfl

theorem Ledgered.find {d : Deduction} (h : Ledgered s) (hd : d ∈ s.deductions) : s.stateOf d.id = some d.state := by
  have hfind : s.find d.id = some d := (Rows.lookup_eq_some h.ids).2 ⟨hd, rfl⟩
  rw [Db.stateOf, hfind]
  rfl

theorem Sound.survivor (h : Sound s) {m : Merge} (hm : m ∈ current s.deduction_merges) :
    ∃ d ∈ s.deductions, d.id = m.surviving_deduction_id ∧ d.state ≠ .merged ∧ d.state ≠ .removed := by
  obtain ⟨st, hst⟩ := Option.ne_none_iff_exists'.1 (h.named m (mem_current.1 hm).1).2
  obtain ⟨d, hfind, hd⟩ := Option.map_eq_some_iff.1 hst
  refine ⟨d, Rows.mem_of_lookup hfind, Rows.key_of_lookup hfind, fun hmerged => ?_, fun hremoved => ?_⟩
  · obtain ⟨m', hm', he⟩ := (h.merged_iff hst).1 (hd.symm.trans hmerged)
    exact h.apart m hm m' hm' he.symm
  · exact h.present m hm (by rw [hst, ← hd, hremoved])

end

/-- **The merge and removal machine.** In every run that records no merge into a removed case: a case is merged
exactly when one standing merge names it; the survivor of a standing merge is neither merged away nor removed; no
pair is merged twice; an undo puts the case back in the state it was merged from; and a merged case has a
survivor that is neither. -/
theorem merge_machine_sound {s : Db} (hrun : Run IntoPresent .empty s) :
    (∀ d ∈ s.deductions, d.state = .merged ↔
      ((current s.deduction_merges).filter fun m => m.merged_deduction_id = d.id).length = 1) ∧
    (∀ m ∈ current s.deduction_merges, ∃ d ∈ s.deductions,
      d.id = m.surviving_deduction_id ∧ d.state ≠ .merged ∧ d.state ≠ .removed) ∧
    (s.deduction_merges.filter fun m => m.action = .merge).Pairwise (fun m m' => ¬ SamePair m m') ∧
    (∀ (session session' : Session) (m u : Merge) (s₁ s₂ s₃ : Db), m.action = .merge → IntoPresent s (.merge m) →
      exec session s (.merge m) = .ok s₁ → Run IntoPresent s₁ s₂ → exec session' s₂ (.merge u) = .ok s₃ →
      Undoes u m → s₃.stateOf m.merged_deduction_id = s.stateOf m.merged_deduction_id) ∧
    ∀ d ∈ s.deductions, d.state = .merged → ∃ m ∈ current s.deduction_merges, m.merged_deduction_id = d.id ∧
      ∃ e ∈ s.deductions, e.id = m.surviving_deduction_id ∧ e.state ≠ .merged ∧ e.state ≠ .removed := by
  have h := sound_empty.run hrun
  refine ⟨fun d hd => ?_, fun m hm => h.survivor hm, ?_, ?_, fun d hd hmerged => ?_⟩
  · have hcount := h.projected _ _ (h.find hd)
    rw [hcount]
    split <;> simp_all
  · refine (List.pairwise_filter.2 (h.once.imp fun hne ha ha' => hne ?_))
    rw [of_decide_eq_true ha, of_decide_eq_true ha']
  · intro session session' m u s₁ s₂ s₃ ha _ hmerge hrun' hundo hundoes
    exact undo_restores h.toLedgered ha hmerge hrun' hundo hundoes
  · obtain ⟨m, hm, hid⟩ := (h.merged_iff (h.find hd)).1 hmerged
    exact ⟨m, hm, hid, h.survivor hm⟩

/-! ## Two runs -/

/-- Statements of one session one after another, as long as each is `ok` and admitted. -/
def script (ok : Db → Statement → Prop) [∀ s statement, Decidable (ok s statement)] (session : Session) :
    Db → List Statement → Option Db
  | s, [] => some s
  | s, statement :: rest =>
    if ok s statement then (exec session s statement).toOption.bind fun s' => script ok session s' rest else none

theorem run_of_script {ok : Db → Statement → Prop} [∀ s statement, Decidable (ok s statement)] {session : Session} :
    ∀ {statements : List Statement} {s₀ s s' : Db}, Run ok s₀ s → script ok session s statements = some s' →
      Run ok s₀ s'
  | [], _, _, _, hrun, h => Option.some.inj h ▸ hrun
  | statement :: rest, _, s, _, hrun, h => by
    rw [script] at h
    split_ifs at h with hok
    obtain ⟨s₁, hexec, h⟩ := Option.bind_eq_some_iff.1 h
    cases he : exec session s statement with
    | error reason =>
      rw [he] at hexec
      cases hexec
    | ok s₂ =>
      rw [he] at hexec
      cases hexec
      exact run_of_script (hrun.step hok he) h

def approver : Session := ⟨7, true, true⟩

/-- Two cases of one amount, and a person who says they are one deduction. -/
def confirmedPair : List Statement :=
  [.openCase ⟨0, .classified, 312000, 0⟩, .openCase ⟨1, .classified, 312000, 1⟩,
    .recordEvent 0 .duplicate_confirmed (some 1), .recordEvent 1 .duplicate_confirmed (some 0)]

/-- The newer of the two merged into the older. -/
def newerIntoOlder (verdict : Nat) : Statement :=
  .merge ⟨0, 1, 0, .merge, some .classified, some 312000, some verdict, 7, 5⟩

/-- A confirmed pair is merged. -/
theorem confirmed_pair_sound : ∃ s, Run IntoPresent .empty s ∧ s.stateOf 1 = some .merged ∧
    ∀ d ∈ s.deductions, d.state = .merged ↔
      ((current s.deduction_merges).filter fun m => m.merged_deduction_id = d.id).length = 1 := by
  have hscript : (script IntoPresent approver .empty (confirmedPair ++ [newerIntoOlder 1])).map (·.stateOf 1) =
      some (some .merged) := by decide
  obtain ⟨s, hs, hstate⟩ := Option.map_eq_some_iff.1 hscript
  have hrun : Run IntoPresent .empty s := run_of_script .refl hs
  exact ⟨s, hrun, hstate, (merge_machine_sound hrun).1⟩

/-- The older case is removed, then the newer one is merged into it: the deduction is counted nowhere. -/
theorem merged_into_removed : ∃ s, Run (fun _ _ => True) .empty s ∧
    ∃ m ∈ current s.deduction_merges, s.stateOf m.surviving_deduction_id = some .removed := by
  have hscript : (script (fun _ _ => True) approver .empty (confirmedPair ++
      [.recordEvent 0 .removed none, .moveCase 0 .removed, newerIntoOlder 1])).map (fun s =>
        (current s.deduction_merges).map fun m => s.stateOf m.surviving_deduction_id) = some [some .removed] := by
    decide
  obtain ⟨s, hs, hstate⟩ := Option.map_eq_some_iff.1 hscript
  refine ⟨s, run_of_script .refl hs, ?_⟩
  obtain ⟨m, hm, hremoved⟩ := List.mem_map.1 (hstate ▸ List.mem_singleton_self (some CaseState.removed))
  exact ⟨m, hm, hremoved⟩

end Recouple.Database.Merges
