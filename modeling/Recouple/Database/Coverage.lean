import Recouple.Database.Merges
import Recouple.Lib.GroupedSums

/-!
# The coverage view: 0044 (99-223)

`coverage_by_period_by_source` over the tables of one tenant: what was discovered, filed and declined by month
and channel. A month is `date_trunc('month', …)` of a time in the session's time zone; a sum past `bigint`
makes the whole read fail (`none`).
-/

namespace Recouple.Database.Merges
open Pipeline (CaseState UploadSource)
open GroupedSums

/-- The group of a row: no channel is `'unknown'`. -/
structure CoverageKey where
  period : Option Int
  discovered_from : Option UploadSource
deriving DecidableEq

/-- A row of the view; the tenant is the session's. -/
structure CoverageRow where
  key : CoverageKey
  opened_count : Nat
  opened_cents : Int
  filed_count : Nat
  filed_cents : Int
  declined_count : Nat
  declined_cents : Int
  discovered_cents : Int
  coverage_of_discovered : Option ℚ
deriving DecidableEq

/-- `n::bigint`, or the addition of two of them. -/
def bigint (n : Int) : Option Int := if -2 ^ 63 ≤ n ∧ n < 2 ^ 63 then some n else none

section
variable (s : Db)

/-- Among `merged_away`. -/
def MergedAway (id : Nat) : Prop := ∃ m ∈ current s.deduction_merges, m.merged_deduction_id = id

instance (id : Nat) : Decidable (MergedAway s id) := inferInstanceAs (Decidable (∃ m ∈ _, _))

/-- Among `removed`. -/
def Removed (id : Nat) : Prop := ∃ d ∈ s.deductions, d.state = .removed ∧ d.id = id

instance (id : Nat) : Decidable (Removed s id) := inferInstanceAs (Decidable (∃ d ∈ _, _))

/-- The cases that are deductions of their own: neither merged away nor removed. -/
def liveCases : List Deduction := s.deductions.filter fun d => ¬ MergedAway s d.id ∧ d.state ≠ .removed

/-- `case_group`: a case and the cases that count as it. -/
def caseGroup : List (Nat × Nat) :=
  (liveCases s).map (fun d => (d.id, d.id)) ++
    (current s.deduction_merges).map fun m => (m.surviving_deduction_id, m.merged_deduction_id)

/-- The members of a case's group. -/
def membersOf (id : Nat) : List Nat := ((caseGroup s).filter fun g => g.1 = id).map (·.2)

/-- The rows of the members: `join deductions member on member.id = g.member_id`. -/
def memberCases (id : Nat) : List Deduction :=
  (membersOf s id).flatMap fun member => s.deductions.filter fun d => d.id = member

/-- The notices of the members. -/
def noticesOf (id : Nat) : List Document :=
  (membersOf s id).flatMap fun member =>
    (s.deduction_documents.filter fun l => l.deduction_id = member ∧ l.role = .notice).flatMap fun l =>
      s.documents.filter fun doc => doc.id = l.document_id

/-- `order by doc.created_at asc, doc.id asc limit 1` -/
def earliestNotice (id : Nat) : Option Document :=
  (noticesOf s id).argmin fun doc => toLex (doc.created_at, doc.id)

variable (month : Nat → Int)

/-- The period and the channel of a row of `case_source`. -/
def caseKey (d : Deduction) : CoverageKey where
  period := ((memberCases s d.id).map (·.created_at)).min?.map month
  discovered_from := (earliestNotice s d.id).bind fun notice => notice.observed_from.or notice.asserted_from

/-- `submissions s join case_source cs on cs.deduction_id = s.deduction_id`. -/
def filedRows : List (Submission × Deduction) :=
  s.submissions.flatMap fun f => ((liveCases s).filter fun d => d.id = f.deduction_id).map (f, ·)

/-- A filing counts in its own month, under the channel of its case. -/
def filedKey (row : Submission × Deduction) : CoverageKey :=
  ⟨some (month row.1.created_at), (caseKey s month row.2).discovered_from⟩

/-- The rows `declined` reads. -/
def declinedRows : List Decline :=
  s.declined_candidates.filter fun k => ∀ id ∈ k.deduction_id, ¬ MergedAway s id ∧ ¬ Removed s id

def declinedKey (k : Decline) : CoverageKey := ⟨some (month k.decided_at), some k.discovered_from⟩

/-- `keys` -/
def coverageKeys : List CoverageKey :=
  ((liveCases s).map (caseKey s month) ++ (filedRows s).map (filedKey s month) ++
    (declinedRows s).map (declinedKey month)).dedup

/-- Of a decline, what never became a case. -/
def uncased (k : Decline) : Int := if k.deduction_id = none then k.estimated_recoverable_cents else 0

/-- A row of the view; `ratio filed discovered` is `round(filed::numeric / discovered, 4)`. -/
def coverageRow (ratio : Int → Int → ℚ) (key : CoverageKey) : Option CoverageRow := do
  let opened := GroupedSums.rowsOf (caseKey s month) (liveCases s) key
  let filed := GroupedSums.rowsOf (filedKey s month) (filedRows s) key
  let declined := GroupedSums.rowsOf (declinedKey month) (declinedRows s) key
  let openedCents ← bigint (opened.map (·.deduction_amount_cents)).sum
  let filedCents ← bigint (filed.map (·.2.deduction_amount_cents)).sum
  let declinedCents ← bigint (declined.map (·.estimated_recoverable_cents)).sum
  let uncasedCents ← bigint (declined.map uncased).sum
  let discoveredCents ← bigint (openedCents + uncasedCents)
  some ⟨key, opened.length, openedCents, filed.length, filedCents, declined.length, declinedCents, discoveredCents,
    if discoveredCents = 0 then none else some (ratio filedCents discoveredCents)⟩

/-- `coverage_by_period_by_source` -/
def coverage (ratio : Int → Int → ℚ) : Option (List CoverageRow) :=
  (coverageKeys s month).mapM (coverageRow s month ratio)

end

/-! ## What the view counts -/

section
variable {s : Db} {month : Nat → Int} {ratio : Int → Int → ℚ} {rows : List CoverageRow}

theorem mem_liveCases {d : Deduction} : d ∈ liveCases s ↔ d ∈ s.deductions ∧ ¬ MergedAway s d.id ∧ d.state ≠ .removed := by
  simp [liveCases]

theorem bigint_eq_some {n v : Int} : bigint n = some v ↔ -2 ^ 63 ≤ n ∧ n < 2 ^ 63 ∧ v = n := by
  unfold bigint
  split_ifs with h
  · constructor
    · intro hv
      cases hv
      exact ⟨h.1, h.2, rfl⟩
    · rintro ⟨-, -, rfl⟩
      rfl
  · constructor
    · intro hv
      cases hv
    · rintro ⟨h1, h2, -⟩
      exact absurd ⟨h1, h2⟩ h

/-- What a row of the view says. -/
theorem coverageRow_eq {key : CoverageKey} {row : CoverageRow} (h : coverageRow s month ratio key = some row) :
    row.key = key ∧
      row.opened_count = (GroupedSums.rowsOf (caseKey s month) (liveCases s) key).length ∧
      row.opened_cents = ((GroupedSums.rowsOf (caseKey s month) (liveCases s) key).map (·.deduction_amount_cents)).sum ∧
      row.filed_count = (GroupedSums.rowsOf (filedKey s month) (filedRows s) key).length ∧
      row.filed_cents = ((GroupedSums.rowsOf (filedKey s month) (filedRows s) key).map (·.2.deduction_amount_cents)).sum ∧
      row.discovered_cents = row.opened_cents + ((GroupedSums.rowsOf (declinedKey month) (declinedRows s) key).map uncased).sum := by
  unfold coverageRow at h
  simp only [Option.bind_eq_bind, Option.bind_eq_some_iff, bigint_eq_some, Option.some.injEq] at h
  obtain ⟨opened, ⟨-, -, rfl⟩, filed, ⟨-, -, rfl⟩, declined, ⟨-, -, rfl⟩, uncased, ⟨-, -, rfl⟩, discovered,
    ⟨-, -, rfl⟩, rfl⟩ := h
  exact ⟨rfl, rfl, rfl, rfl, rfl, rfl⟩

/-- The rows of the view, one for each key. -/
theorem coverage_forall₂ (h : coverage s month ratio = some rows) :
    List.Forall₂ (fun key row => coverageRow s month ratio key = some row) (coverageKeys s month) rows := by
  unfold coverage at h
  generalize coverageKeys s month = keys at h
  induction keys generalizing rows with
  | nil =>
    simp only [List.mapM_nil, Option.pure_def, Option.some.injEq] at h
    subst h
    exact .nil
  | cons key keys ih =>
    simp only [List.mapM_cons, Option.bind_eq_bind, Option.bind_eq_some_iff, Option.pure_def, Option.some.injEq] at h
    obtain ⟨row, hrow, rest, hrest, rfl⟩ := h
    exact .cons hrow (ih hrest)

/-- The sums of a group are `bigint`s. -/
def Fits (s : Db) (month : Nat → Int) (key : CoverageKey) : Prop :=
  let opened := ((GroupedSums.rowsOf (caseKey s month) (liveCases s) key).map (·.deduction_amount_cents)).sum
  let uncasedCents := ((GroupedSums.rowsOf (declinedKey month) (declinedRows s) key).map uncased).sum
  (bigint opened).isSome ∧ (bigint ((GroupedSums.rowsOf (filedKey s month) (filedRows s) key).map (·.2.deduction_amount_cents)).sum).isSome ∧
    (bigint ((GroupedSums.rowsOf (declinedKey month) (declinedRows s) key).map (·.estimated_recoverable_cents)).sum).isSome ∧
    (bigint uncasedCents).isSome ∧ (bigint (opened + uncasedCents)).isSome

theorem bigint_isSome {n : Int} : (bigint n).isSome = true ↔ bigint n = some n := by
  unfold bigint
  split_ifs <;> simp

/-- A row is read where its sums fit. -/
theorem coverageRow_returns (ratio : Int → Int → ℚ) {key : CoverageKey} :
    (∃ row, coverageRow s month ratio key = some row) ↔ Fits s month key := by
  unfold coverageRow Fits
  simp only [Option.bind_eq_bind, bigint_isSome]
  constructor
  · rintro ⟨row, h⟩
    simp only [Option.bind_eq_some_iff] at h
    obtain ⟨opened, ho, filed, hf, declined, hd, uncased, hu, discovered, hv, -⟩ := h
    obtain ⟨-, -, rfl⟩ := bigint_eq_some.1 ho
    obtain ⟨-, -, rfl⟩ := bigint_eq_some.1 hf
    obtain ⟨-, -, rfl⟩ := bigint_eq_some.1 hd
    obtain ⟨-, -, rfl⟩ := bigint_eq_some.1 hu
    obtain ⟨-, -, rfl⟩ := bigint_eq_some.1 hv
    exact ⟨ho, hf, hd, hu, hv⟩
  · rintro ⟨ho, hf, hd, hu, hv⟩
    rw [ho, hf, hd, hu, Option.bind_some, Option.bind_some, Option.bind_some, Option.bind_some, hv]
    exact ⟨_, rfl⟩

/-- The view is read where every sum fits. -/
theorem coverage_returns :
    (∃ rows, coverage s month ratio = some rows) ↔ ∀ key ∈ coverageKeys s month, Fits s month key := by
  simp only [← coverageRow_returns ratio]
  unfold coverage
  induction coverageKeys s month with
  | nil => exact ⟨fun _ _ h => absurd h List.not_mem_nil, fun _ => ⟨[], rfl⟩⟩
  | cons key keys ih =>
    rw [List.forall_mem_cons, ← ih]
    simp only [List.mapM_cons, Option.bind_eq_bind, Option.bind_eq_some_iff, Option.pure_def, Option.some.injEq]
    constructor
    · rintro ⟨_, row, hrow, rest, hrest, -⟩
      exact ⟨⟨row, hrow⟩, rest, hrest⟩
    · rintro ⟨⟨row, hrow⟩, rest, hrest⟩
      exact ⟨_, row, hrow, rest, hrest, rfl⟩

/-- A figure of the view, read off its key. -/
theorem coverage_map {β : Type} {figure : CoverageRow → β} {f : CoverageKey → β} (h : coverage s month ratio = some rows)
    (hf : ∀ key row, coverageRow s month ratio key = some row → figure row = f key) :
    rows.map figure = (coverageKeys s month).map f := by
  have hall := coverage_forall₂ h
  clear h
  generalize coverageKeys s month = keys at hall ⊢
  induction hall with
  | nil => rfl
  | cons hrow _ ih => rw [List.map_cons, List.map_cons, ih, hf _ _ hrow]

theorem coverage_keys (h : coverage s month ratio = some rows) : rows.map (·.key) = coverageKeys s month := by
  have := coverage_map h fun key row hrow => (coverageRow_eq hrow).1
  simpa using this

theorem nodup_coverageKeys : (coverageKeys s month).Nodup := List.nodup_dedup _

theorem mem_coverageKeys {key : CoverageKey} : key ∈ coverageKeys s month ↔
    (∃ d ∈ liveCases s, caseKey s month d = key) ∨ (∃ r ∈ filedRows s, filedKey s month r = key) ∨
      ∃ k ∈ declinedRows s, declinedKey month k = key := by
  simp [coverageKeys]

/-- **Each dollar is opened once.** -/
theorem opened_total (h : coverage s month ratio = some rows) :
    (rows.map (·.opened_cents)).sum = ((liveCases s).map (·.deduction_amount_cents)).sum := by
  rw [coverage_map h fun key row hrow => (coverageRow_eq hrow).2.2.1]
  exact sum_groups nodup_coverageKeys _ fun d hd => mem_coverageKeys.2 (.inl ⟨d, hd, rfl⟩)

/-- Of the declines, those that never became a case. -/
def uncasedDeclines (s : Db) : List Decline := s.declined_candidates.filter fun k => k.deduction_id = none

/-- What else is read of the declines adds nothing to it. -/
theorem sum_uncased {counted : Decline → Bool} (h : ∀ k, k.deduction_id = none → counted k = true) :
    ∀ declines : List Decline, ((declines.filter counted).map uncased).sum =
      ((declines.filter fun k => k.deduction_id = none).map (·.estimated_recoverable_cents)).sum
  | [] => rfl
  | k :: declines => by
    have ih := sum_uncased h declines
    cases hk : k.deduction_id with
    | none => simp [hk, h k hk, uncased, ih]
    | some id => by_cases hin : counted k = true <;> simp [hk, hin, uncased, ih]

/-- **What was discovered** is what was opened and what was declined without becoming a case. -/
theorem discovered_total (h : coverage s month ratio = some rows) :
    (rows.map (·.discovered_cents)).sum =
      (rows.map (·.opened_cents)).sum + ((uncasedDeclines s).map (·.estimated_recoverable_cents)).sum := by
  have hdeclined : ((coverageKeys s month).map fun key =>
      ((GroupedSums.rowsOf (declinedKey month) (declinedRows s) key).map uncased).sum).sum =
        ((uncasedDeclines s).map (·.estimated_recoverable_cents)).sum := by
    have huncased : ((uncasedDeclines s).map (·.estimated_recoverable_cents)).sum =
        ((declinedRows s).map uncased).sum := (sum_uncased (fun k hk => by simp [hk]) _).symm
    rw [huncased]
    exact sum_groups nodup_coverageKeys _ fun k hk => mem_coverageKeys.2 (.inr (.inr ⟨k, hk, rfl⟩))
  have hmap : rows.map (·.discovered_cents) = (coverageKeys s month).map fun key =>
      ((GroupedSums.rowsOf (caseKey s month) (liveCases s) key).map (·.deduction_amount_cents)).sum +
        ((GroupedSums.rowsOf (declinedKey month) (declinedRows s) key).map uncased).sum :=
    coverage_map h fun key row hrow => by
      obtain ⟨-, -, hopened, -, -, hdiscovered⟩ := coverageRow_eq hrow
      rw [hdiscovered, hopened]
  rw [hmap, List.sum_map_add, hdeclined, coverage_map h fun key row hrow => (coverageRow_eq hrow).2.2.1]

/-- Each live case is in the group of its key and in no other. -/
theorem case_counted_once (h : coverage s month ratio = some rows) {d : Deduction} (hd : d ∈ liveCases s) :
    ∃ row ∈ rows, row.key = caseKey s month d ∧ ∀ row' ∈ rows, row'.key = row.key → row' = row := by
  have hkeys := coverage_keys h
  have hmem : caseKey s month d ∈ rows.map (·.key) := hkeys ▸ mem_coverageKeys.2 (.inl ⟨d, hd, rfl⟩)
  obtain ⟨row, hrow, hkey⟩ := List.mem_map.1 hmem
  have hnodup : (rows.map (·.key)).Nodup := hkeys ▸ nodup_coverageKeys
  exact ⟨row, hrow, hkey, fun row' hrow' he => List.inj_on_of_nodup_map hnodup hrow' hrow he⟩

/-- The view reads no more of the ledger than the standing merges. -/
theorem coverage_congr {s' : Db} (hd : s'.deductions = s.deductions)
    (hm : current s'.deduction_merges = current s.deduction_merges) (hf : s'.submissions = s.submissions)
    (hk : s'.declined_candidates = s.declined_candidates) (hdoc : s'.documents = s.documents)
    (hl : s'.deduction_documents = s.deduction_documents) : coverage s' month ratio = coverage s month ratio := by
  have haway : ∀ id, MergedAway s' id ↔ MergedAway s id := fun id => by rw [MergedAway, MergedAway, hm]
  have hremoved : ∀ id, Removed s' id ↔ Removed s id := fun id => by rw [Removed, Removed, hd]
  have hlive : liveCases s' = liveCases s := by
    unfold liveCases
    rw [hd]
    exact List.filter_congr fun d _ => decide_eq_decide.2 (by rw [haway])
  have hmembers : membersOf s' = membersOf s := by
    funext id
    simp only [membersOf, caseGroup, hlive, hm]
  have hkey : caseKey s' month = caseKey s month := by
    funext d
    simp only [caseKey, memberCases, earliestNotice, noticesOf, hmembers, hd, hdoc, hl]
  have hfiled : filedRows s' = filedRows s := by simp only [filedRows, hlive, hf]
  have hfiledKey : filedKey s' month = filedKey s month := by
    funext row
    simp only [filedKey, hkey]
  have hdeclined : declinedRows s' = declinedRows s := by
    unfold declinedRows
    rw [hk]
    exact List.filter_congr fun k _ => decide_eq_decide.2 (by simp only [haway, hremoved])
  have hrow : coverageRow s' month ratio = coverageRow s month ratio := by
    funext key
    simp only [coverageRow, hlive, hkey, hfiled, hfiledKey, hdeclined]
  simp only [coverage, coverageKeys, hrow, hlive, hkey, hfiled, hfiledKey, hdeclined]

/-! ## The group of a case -/

/-- The case or one that is merged into it. -/
def InGroup (s : Db) (d e : Deduction) : Prop :=
  e ∈ s.deductions ∧ (e.id = d.id ∨ ∃ m ∈ current s.deduction_merges,
    m.surviving_deduction_id = d.id ∧ m.merged_deduction_id = e.id)

theorem mem_membersOf {d : Deduction} (hd : d ∈ liveCases s) {id : Nat} : id ∈ membersOf s d.id ↔
    id = d.id ∨ ∃ m ∈ current s.deduction_merges, m.surviving_deduction_id = d.id ∧ m.merged_deduction_id = id := by
  simp only [membersOf, caseGroup, List.mem_map, List.mem_filter, List.mem_append, decide_eq_true_eq]
  constructor
  · rintro ⟨g, ⟨⟨e, -, rfl⟩ | ⟨m, hm, rfl⟩, he⟩, rfl⟩
    · exact .inl he
    · exact .inr ⟨m, hm, he, rfl⟩
  · rintro (rfl | ⟨m, hm, hs, rfl⟩)
    · exact ⟨(d.id, d.id), ⟨.inl ⟨d, hd, rfl⟩, rfl⟩, rfl⟩
    · exact ⟨(m.surviving_deduction_id, m.merged_deduction_id), ⟨.inr ⟨m, hm, rfl⟩, hs⟩, rfl⟩

theorem mem_memberCases {d e : Deduction} (hd : d ∈ liveCases s) : e ∈ memberCases s d.id ↔ InGroup s d e := by
  simp only [memberCases, List.mem_flatMap, List.mem_filter, decide_eq_true_eq, mem_membersOf hd, InGroup]
  constructor
  · rintro ⟨_, hmem, he, rfl⟩
    exact ⟨he, hmem⟩
  · rintro ⟨he, hmem⟩
    exact ⟨e.id, hmem, he, rfl⟩

/-- **The month** is that of the earliest opening in the group. -/
theorem period_eq {d : Deduction} (hd : d ∈ liveCases s) : ∃ first, InGroup s d first ∧
    (∀ e, InGroup s d e → first.created_at ≤ e.created_at) ∧
      (caseKey s month d).period = some (month first.created_at) := by
  have hself : d ∈ memberCases s d.id := (mem_memberCases hd).2 ⟨(mem_liveCases.1 hd).1, .inl rfl⟩
  cases hmin : ((memberCases s d.id).map (·.created_at)).min? with
  | none =>
    rw [List.min?_eq_none_iff, List.map_eq_nil_iff] at hmin
    rw [hmin] at hself
    exact absurd hself List.not_mem_nil
  | some t =>
    obtain ⟨hmem, hle⟩ := List.min?_eq_some_iff.1 hmin
    obtain ⟨first, hfirst, rfl⟩ := List.mem_map.1 hmem
    refine ⟨first, (mem_memberCases hd).1 hfirst, fun e he => hle _ (List.mem_map_of_mem ((mem_memberCases hd).2 he)), ?_⟩
    rw [caseKey, hmin]
    rfl

/-- A notice of a case of the group. -/
def GroupNotice (s : Db) (d : Deduction) (doc : Document) : Prop :=
  doc ∈ s.documents ∧ ∃ link ∈ s.deduction_documents, link.document_id = doc.id ∧ link.role = .notice ∧
    (link.deduction_id = d.id ∨ ∃ m ∈ current s.deduction_merges,
      m.surviving_deduction_id = d.id ∧ m.merged_deduction_id = link.deduction_id)

theorem mem_noticesOf {d : Deduction} (hd : d ∈ liveCases s) {doc : Document} :
    doc ∈ noticesOf s d.id ↔ GroupNotice s d doc := by
  simp only [noticesOf, List.mem_flatMap, List.mem_filter, decide_eq_true_eq, mem_membersOf hd, GroupNotice]
  constructor
  · rintro ⟨_, hmem, link, ⟨hlink, rfl, hrole⟩, hdoc, hid⟩
    exact ⟨hdoc, link, hlink, hid.symm, hrole, hmem⟩
  · rintro ⟨hdoc, link, hlink, hid, hrole, hmem⟩
    exact ⟨link.deduction_id, hmem, link, ⟨hlink, rfl, hrole⟩, hdoc, hid.symm⟩

/-- **The channel** is that of the earliest notice in the group, if there is one. -/
theorem discovered_from_eq {d : Deduction} (hd : d ∈ liveCases s) :
    ((∀ doc, ¬ GroupNotice s d doc) ∧ (caseKey s month d).discovered_from = none) ∨
      ∃ first, GroupNotice s d first ∧
        (∀ doc, GroupNotice s d doc → toLex (first.created_at, first.id) ≤ toLex (doc.created_at, doc.id)) ∧
        (caseKey s month d).discovered_from = first.observed_from.or first.asserted_from := by
  cases hmin : earliestNotice s d.id with
  | none =>
    refine .inl ⟨fun doc hdoc => ?_, by rw [caseKey, hmin]; rfl⟩
    rw [earliestNotice, List.argmin_eq_none] at hmin
    have hmem := (mem_noticesOf hd).2 hdoc
    rw [hmin] at hmem
    exact absurd hmem List.not_mem_nil
  | some first =>
    rw [earliestNotice, List.argmin_eq_some_iff] at hmin
    refine .inr ⟨first, (mem_noticesOf hd).1 hmin.1, fun doc hdoc => hmin.2.1 doc ((mem_noticesOf hd).2 hdoc), ?_⟩
    have hfirst : earliestNotice s d.id = some first := by rw [earliestNotice, List.argmin_eq_some_iff]; exact hmin
    rw [caseKey, hfirst]
    rfl

end

end Recouple.Database.Merges
