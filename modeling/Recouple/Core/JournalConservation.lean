import Recouple.Core.SettlementVerdict

/-!
# A draft conserves the deducted amount

Every drafted entry is a `pair` of one positive amount (`draftEntries_ok`), so what holds of pairs holds of a
draft, and of the settlement lines made from it.

* **`draft_conserved`**: the entries balance; once an outcome is recorded, the deductions receivable nets to
  zero and recovered plus written off is the amount; the lines of a draft balance, differ in nothing from
  themselves and are accepted against themselves exactly where their total is a safe integer.
* **`unsafe_total_refused`**: a draft without lines, and one whose lines are refused.
-/

namespace Recouple.Journal
open Js KeyedFold

/-! ## Pairs -/

/-- An entry of one positive amount, debited once and credited once. -/
def IsPair (entry : DraftEntry) : Prop :=
  ∃ stage amount debit credit memo tag, 0 < amount.val ∧ entry = pair stage amount debit credit memo tag

theorem sumCents_pair {a b : Cents} (h : a = ZERO ∨ b = ZERO) : ∃ c, sumCents [a, b] = .ok c ∧ c.val = a.val + b.val := by
  have hz : ZERO.val = 0 := rfl
  have ha := a.inRange
  have hb := b.inRange
  obtain ⟨first, hfirst⟩ := addCents_returns.2 (show InRange (ZERO.val + a.val) by rwa [hz, Int.zero_add])
  have h1 := addCents_ok.1 hfirst
  obtain ⟨sum, hsum⟩ := addCents_returns.2 (show InRange (first.val + b.val) by
    rcases h with rfl | rfl
    · rwa [h1, hz, Int.zero_add, Int.zero_add]
    · rwa [h1, hz, Int.zero_add, Int.add_zero])
  refine ⟨sum, bind_ok.2 ⟨first, hfirst, bind_ok.2 ⟨sum, hsum, rfl⟩⟩, ?_⟩
  have h2 := addCents_ok.1 hsum
  omega

theorem IsPair.balanced {entry : DraftEntry} (h : IsPair entry) : isBalanced entry = .ok true := by
  obtain ⟨stage, amount, debit, credit, memo, tag, -, rfl⟩ := h
  obtain ⟨debits, hd, hdv⟩ := sumCents_pair (a := amount) (b := ZERO) (.inr rfl)
  obtain ⟨credits, hc, hcv⟩ := sumCents_pair (a := ZERO) (b := amount) (.inl rfl)
  have heq : debits = credits := Cents.ext (by omega)
  refine bind_ok.2 ⟨debits, hd, bind_ok.2 ⟨credits, hc, ?_⟩⟩
  rw [heq, decide_eq_true rfl]

/-- The rows of some entries. -/
def rowsOf (accounts : SettlementAccountIds) (entries : List DraftEntry) : List (Text × Cents × Cents) :=
  entries.flatMap fun entry => entry.lines.flatMap (pushed accounts entry)

/-- The two amounts of a row. -/
def rowSides (row : Text × Cents × Cents) : Int × Int := (row.2.1.val, row.2.2.val)

section
variable {accounts : SettlementAccountIds}

theorem rowsOf_pair {entry : DraftEntry} (h : IsPair entry) : ∃ debit credit amount, 0 < amount.val ∧
    entry.lines.flatMap (pushed accounts entry) = [(debit, amount, ZERO), (credit, ZERO, amount)] := by
  obtain ⟨stage, amount, debit, credit, memo, tag, hpos, rfl⟩ := h
  refine ⟨accountFor debit.2 tag accounts, accountFor credit.2 tag accounts, amount, hpos, ?_⟩
  simp [pair, pushed, hpos, ZERO]

theorem debitSum_append (l l' : List (Int × Int)) : debitSum (l ++ l') = debitSum l + debitSum l' := by
  simp [debitSum]

theorem creditSum_append (l l' : List (Int × Int)) : creditSum (l ++ l') = creditSum l + creditSum l' := by
  simp [creditSum]

/-- The rows of pairs balance, and there are two of each. -/
theorem rowsOf_balanced : ∀ {entries : List DraftEntry}, (∀ entry ∈ entries, IsPair entry) →
    debitSum ((rowsOf accounts entries).map rowSides) = creditSum ((rowsOf accounts entries).map rowSides) ∧
      (rowsOf accounts entries).length = 2 * entries.length
  | [], _ => ⟨rfl, rfl⟩
  | entry :: entries, h => by
    rw [List.forall_mem_cons] at h
    obtain ⟨hb, hl⟩ := rowsOf_balanced h.2
    obtain ⟨debit, credit, amount, -, hrows⟩ := @rowsOf_pair accounts _ h.1
    have hcons : rowsOf accounts (entry :: entries) =
        [(debit, amount, ZERO), (credit, ZERO, amount)] ++ rowsOf accounts entries := by
      rw [rowsOf, List.flatMap_cons, hrows]
      rfl
    rw [hcons]
    constructor
    · rw [List.map_append, debitSum_append, creditSum_append, hb]
      simp [debitSum, creditSum, rowSides]
      omega
    · rw [List.length_append, hl, List.length_cons]
      simp only [List.length_cons, List.length_nil]
      omega

end

/-! ## The draft -/

section
variable {input : DraftInput} {entries : List DraftEntry}

theorem draftRefusal_none (h : draftRefusal input = none) : 0 < input.amountCents.val ∧
    0 ≤ (input.recoveredCents.getD ZERO).val ∧ (input.recoveredCents.getD ZERO).val ≤ input.amountCents.val := by
  have hz : ZERO.val = 0 := rfl
  unfold draftRefusal at h
  dsimp only at h
  split_ifs at h with h1 h2 h3 h4 h5
  cases hr : input.recoveredCents with
  | none =>
    rw [Option.getD_none, hz]
    omega
  | some r =>
    simp only [hr, Option.any_some, decide_eq_true_eq] at h2 h3
    rw [Option.getD_some]
    omega

/-- What a draft is: the found pair, then the recovered one and the written-off one where they are
positive. -/
theorem draftEntries_ok (h : draftEntries input = .ok entries) : ∃ map : AccountMap, ∃ rest : Cents,
    draftRefusal input = none ∧ rest.val = input.amountCents.val - (input.recoveredCents.getD ZERO).val ∧
      entries = pair .found input.amountCents (map.deductionsReceivable, .deductions_receivable)
          (map.accountsReceivable, .accounts_receivable) (foundMemo input) input.family ::
        ((if 0 < (input.recoveredCents.getD ZERO).val then
            [pair .recovered (input.recoveredCents.getD ZERO) (map.cash, .cash)
              (map.deductionsReceivable, .deductions_receivable) "Recovered from the payer" input.family]
          else []) ++
        (if input.outcome.isSome ∧ 0 < rest.val then
            [pair .written_off rest (writeoffAccountFor input.family map, .writeoff_expense)
              (map.deductionsReceivable, .deductions_receivable) "Not recovered" input.family]
          else [])) := by
  unfold draftEntries at h
  split at h
  · cases h
  · rename_i hnone
    obtain ⟨rest, hrest, h⟩ := bind_ok.1 h
    exact ⟨_, rest, hnone, subCents_ok.1 (mapError_ok.1 hrest), (Except.ok.inj h).symm⟩

theorem draft_pairs (h : draftEntries input = .ok entries) : ∀ entry ∈ entries, IsPair entry := by
  obtain ⟨map, rest, hnone, -, rfl⟩ := draftEntries_ok h
  have hpos := (draftRefusal_none hnone).1
  intro entry hentry
  rcases List.mem_cons.1 hentry with rfl | hentry
  · exact ⟨_, _, _, _, _, _, hpos, rfl⟩
  · rcases List.mem_append.1 hentry with hentry | hentry
    · split_ifs at hentry with hr
      · rw [List.mem_singleton.1 hentry]
        exact ⟨_, _, _, _, _, _, hr, rfl⟩
      · exact absurd hentry List.not_mem_nil
    · split_ifs at hentry with hr
      · rw [List.mem_singleton.1 hentry]
        exact ⟨_, _, _, _, _, _, hr.2, rfl⟩
      · exact absurd hentry List.not_mem_nil

/-- Debits less credits of the lines of a role. -/
def roleNet (role : AccountRole) (entries : List DraftEntry) : Int :=
  (((entries.flatMap (·.lines)).filter fun line => line.role = role).map fun line =>
    line.debit.val - line.credit.val).sum

/-- The debits of a stage. -/
def stageTotal (stage : JournalStage) (entries : List DraftEntry) : Int :=
  (((entries.filter fun entry => entry.stage = stage).flatMap (·.lines)).map (·.debit.val)).sum

/-- Once an outcome is recorded the receivable is closed, by what came back and what was given up. -/
theorem outcome_closes (h : draftEntries input = .ok entries) (houtcome : input.outcome.isSome) :
    roleNet .deductions_receivable entries = 0 ∧
      stageTotal .recovered entries + stageTotal .written_off entries = input.amountCents.val := by
  obtain ⟨map, rest, hnone, hrest, rfl⟩ := draftEntries_ok h
  obtain ⟨hpos, hr0, hra⟩ := draftRefusal_none hnone
  have hz : ZERO.val = 0 := rfl
  by_cases h1 : 0 < (input.recoveredCents.getD ZERO).val <;> by_cases h2 : 0 < rest.val <;>
    simp [roleNet, stageTotal, pair, houtcome, h1, h2, hz] <;> omega

end

/-! ## The lines of a draft -/

/-- A computed line, as somebody proposes it back. -/
def SettlementLine.proposed (line : SettlementLine) : SettlementLineInput where
  accountExternalId := line.accountExternalId
  debitCents := .integer line.debitCents.val
  creditCents := .integer line.creditCents.val
  memo := line.memo

/-- Lines differ in nothing from themselves. -/
theorem diffSettlementLines_self (lines : List SettlementLine) : diffSettlementLines lines lines = [] := by
  rw [diffSettlementLines, List.filterMap_eq_nil_iff]
  intro index hindex
  rw [Nat.max_self, List.mem_range] at hindex
  rw [List.getElem?_eq_getElem hindex]
  simp [lineChanges]

section
variable {input : DraftInput} {entries : List DraftEntry} {accounts : SettlementAccountIds} {includeFound : Bool}
  {lines : List SettlementLine} {chart : List SettlementChartAccount} {policy : SettlementAccountPolicy}

theorem lines_sides (h : settlementLinesFrom entries accounts includeFound = .ok lines) :
    lines.map (·.sides) = (stagedRows entries accounts includeFound).map rowSides := by
  obtain ⟨-, rfl⟩ := settlementLinesFrom_ok.1 h
  refine List.ext_getElem (by simp) fun i h1 h2 => ?_
  rw [List.getElem_map, List.getElem_mapIdx, List.getElem_map]
  rfl

theorem stagedRows_eq : stagedRows entries accounts includeFound =
    rowsOf accounts (entries.filter fun entry => entry.stage ∈ settlementEntryStages includeFound) := rfl

theorem lines_balanced (hd : draftEntries input = .ok entries)
    (h : settlementLinesFrom entries accounts includeFound = .ok lines) :
    debitSum (lines.map (·.sides)) = creditSum (lines.map (·.sides)) := by
  rw [lines_sides h, stagedRows_eq]
  exact (rowsOf_balanced fun entry hentry => draft_pairs hd entry (List.mem_filter.1 hentry).1).1

/-- Two lines an entry, so two, four or six of them. -/
theorem lines_length (hd : draftEntries input = .ok entries)
    (h : settlementLinesFrom entries accounts includeFound = .ok lines) :
    SETTLEMENT_MIN_LINES ≤ lines.length ∧ lines.length ≤ SETTLEMENT_MAX_LINES := by
  have hlen : lines.length = (stagedRows entries accounts includeFound).length := by
    rw [← List.length_map (f := rowSides), ← lines_sides h, List.length_map]
  obtain ⟨hne, -⟩ := settlementLinesFrom_ok.1 h
  have hrows := (@rowsOf_balanced accounts (entries.filter fun entry => entry.stage ∈ settlementEntryStages includeFound)
    fun entry hentry => draft_pairs hd entry (List.mem_filter.1 hentry).1).2
  rw [← stagedRows_eq] at hrows
  have hfew : entries.length ≤ 3 := by
    obtain ⟨map, rest, -, -, rfl⟩ := draftEntries_ok hd
    simp only [List.length_cons, List.length_append]
    split_ifs <;> simp
  have hfilter := List.length_filter_le (fun entry : DraftEntry => entry.stage ∈ settlementEntryStages includeFound) entries
  have hpos := List.length_pos_iff.2 hne
  unfold SETTLEMENT_MIN_LINES SETTLEMENT_MAX_LINES
  omega

/-- A draft has lines where the found entry is asked for, an outcome is recorded or something came back. -/
theorem settlementLinesFrom_returns (hd : draftEntries input = .ok entries) :
    (∃ lines, settlementLinesFrom entries accounts includeFound = .ok lines) ↔
      includeFound = true ∨ input.outcome.isSome ∨ 0 < (input.recoveredCents.getD ZERO).val := by
  have hpairs := draft_pairs hd
  have hiff : (∃ lines, settlementLinesFrom entries accounts includeFound = .ok lines) ↔
      ∃ entry ∈ entries, entry.stage ∈ settlementEntryStages includeFound := by
    constructor
    · rintro ⟨lines, h⟩
      obtain ⟨hne, -⟩ := settlementLinesFrom_ok.1 h
      obtain ⟨row, hrow⟩ := List.exists_mem_of_ne_nil _ hne
      obtain ⟨entry, hentry, -⟩ := List.mem_flatMap.1 hrow
      obtain ⟨hmem, hstage⟩ := List.mem_filter.1 hentry
      exact ⟨entry, hmem, of_decide_eq_true hstage⟩
    · rintro ⟨entry, hmem, hstage⟩
      refine ⟨_, settlementLinesFrom_ok.2 ⟨?_, rfl⟩⟩
      obtain ⟨debit, credit, amount, -, hrows⟩ := @rowsOf_pair accounts _ (hpairs entry hmem)
      refine List.ne_nil_of_mem (a := (debit, amount, ZERO)) (List.mem_flatMap.2 ⟨entry, ?_, ?_⟩)
      · exact List.mem_filter.2 ⟨hmem, decide_eq_true hstage⟩
      · rw [hrows]
        exact List.mem_cons_self
  rw [hiff]
  obtain ⟨map, rest, hnone, hrest, rfl⟩ := draftEntries_ok hd
  obtain ⟨hpos, hr0, hra⟩ := draftRefusal_none hnone
  cases includeFound with
  | true => simp [settlementEntryStages, pair]
  | false =>
    by_cases h1 : 0 < (input.recoveredCents.getD ZERO).val <;> by_cases h2 : 0 < rest.val <;>
      by_cases h3 : input.outcome.isSome <;> simp [settlementEntryStages, pair, h1, h2, h3]
    omega

/-- Lines proposed against themselves keep the rules, where their accounts are permitted. -/
theorem proposed_rules (hd : draftEntries input = .ok entries)
    (h : settlementLinesFrom entries accounts includeFound = .ok lines)
    (hp : ∀ line ∈ lines, Permitted chart policy (trim line.accountExternalId)) :
    Rules (lines.map (·.proposed)) chart lines policy := by
  have hc := computed_of_settlementLinesFrom h
  have hsides : (lines.map (·.proposed)).map (·.sides) = lines.map (·.sides) := by
    rw [List.map_map]
    rfl
  have hentry : (lines.map (·.proposed)).map (·.entry) = lines.map (·.entry) := by
    rw [List.map_map]
    rfl
  have hlength := lines_length hd h
  refine ⟨?_, ?_, ?_, ?_, ?_, ?_⟩
  · rw [List.length_map]
    exact hlength.1
  · rw [List.length_map]
    exact hlength.2
  · intro proposal hproposal
    obtain ⟨line, hline, rfl⟩ := List.mem_map.1 hproposal
    refine ⟨⟨line.debitCents, line.creditCents, rfl, rfl, hc line hline⟩, ?_, hp line hline⟩
    have hmemo : line.memo = none := by
      obtain ⟨-, rfl⟩ := settlementLinesFrom_ok.1 h
      obtain ⟨i, hi, rfl⟩ := List.mem_mapIdx.1 hline
      rfl
    intro m hm
    rw [SettlementLine.proposed, hmemo] at hm
    cases hm
  · rw [hsides]
    exact lines_balanced hd h
  · rw [hsides]
  · rw [hentry]

/-- Lines proposed against themselves get a verdict, and are accepted exactly where their total is safe. -/
theorem proposed_accepted_iff (hd : draftEntries input = .ok entries)
    (h : settlementLinesFrom entries accounts includeFound = .ok lines)
    (hp : ∀ line ∈ lines, Permitted chart policy (trim line.accountExternalId)) :
    ∃ verdict, validateSettlementLines (lines.map (·.proposed)) chart lines policy = .ok verdict ∧
      ((∃ stored, verdict = .accepted stored) ↔ InRange (debitSum (lines.map (·.sides)))) := by
  have hc := computed_of_settlementLinesFrom h
  have hrules := proposed_rules hd h hp
  by_cases hsafe : InRange (debitSum (lines.map (·.sides)))
  · have htotals : TotalsSafe (lines.map (·.sides)) := ⟨hsafe, lines_balanced hd h ▸ hsafe⟩
    exact ⟨_, (validate_accepts hc htotals).2 ⟨hrules, rfl⟩, fun _ => hsafe, fun _ => ⟨_, rfl⟩⟩
  · -- the totals of the proposal itself are refused first, inside the `try`
    have husable : usableLines (lines.map (·.proposed)) = lines.map (·.proposed) :=
      usableLines_eq fun line hl => (hrules.lines line hl).oneSided
    have hsides : (lines.map (·.proposed)).map (·.sides) = lines.map (·.sides) := by
      rw [List.map_map]
      rfl
    have hsum : sumProblems lines (usableLines (lines.map (·.proposed))) = .ok [.not_integer_cents] := by
      rw [husable, sumProblems, hsides]
      cases ht : settlementTotals (lines.map (·.sides)) with
      | error e => rfl
      | ok totals => exact absurd ((settlementTotals_returns (sides_nonneg hc)).1 ⟨totals, ht⟩).1 hsafe
    have hreadable : ((lines.map (·.proposed)).all fun line =>
        amountProblem line.debitCents line.creditCents ≠ some .not_integer_cents) = true := by
      rw [List.all_eq_true]
      intro line hl
      simp [amountProblem_none.2 (hrules.lines line hl).sides]
    have htotal : totalProblems policy lines (lines.map (·.proposed)) =
        .ok ([.not_integer_cents] ++ receivableProblems policy lines (usableLines (lines.map (·.proposed)))) :=
      bind_ok.2 ⟨_, hsum, rfl⟩
    refine ⟨_, bind_ok.2 ⟨_, by rw [if_pos hreadable]; exact htotal, rfl⟩, ?_⟩
    simp [hsafe]

/-- The entries of a draft balance; once an outcome is recorded, the deductions receivable nets to zero and
recovered plus written off is the amount. A draft has settlement lines exactly where a stage asked for is
drafted, and they balance, differ in nothing from themselves and are accepted against themselves exactly
where their total is a safe integer. -/
theorem draft_conserved (hd : draftEntries input = .ok entries) :
    (∀ entry ∈ entries, isBalanced entry = .ok true) ∧
    (input.outcome.isSome → roleNet .deductions_receivable entries = 0 ∧
      stageTotal .recovered entries + stageTotal .written_off entries = input.amountCents.val) ∧
    ∀ accounts includeFound,
      ((∃ lines, settlementLinesFrom entries accounts includeFound = .ok lines) ↔
        includeFound = true ∨ input.outcome.isSome ∨ 0 < (input.recoveredCents.getD ZERO).val) ∧
      ∀ lines, settlementLinesFrom entries accounts includeFound = .ok lines →
        debitSum (lines.map (·.sides)) = creditSum (lines.map (·.sides)) ∧
        diffSettlementLines lines lines = [] ∧
        (InRange (debitSum (lines.map (·.sides))) →
          ∃ total, settlementTotals (lines.map (·.sides)) = .ok (total, total, true)) ∧
        ∀ chart policy, (∀ line ∈ lines, Permitted chart policy (trim line.accountExternalId)) →
          ∃ verdict, validateSettlementLines (lines.map (·.proposed)) chart lines policy = .ok verdict ∧
            ((∃ stored, verdict = .accepted stored) ↔ InRange (debitSum (lines.map (·.sides)))) := by
  refine ⟨fun entry hentry => (draft_pairs hd entry hentry).balanced, outcome_closes hd, fun accounts includeFound => ?_⟩
  refine ⟨settlementLinesFrom_returns hd, fun lines h => ?_⟩
  refine ⟨lines_balanced hd h, diffSettlementLines_self lines, fun hsafe => ?_, fun chart policy hp => ?_⟩
  · have hn := sides_nonneg (computed_of_settlementLinesFrom h)
    exact ⟨⟨_, hsafe.1, hsafe.2⟩, (settlementTotals_ok hn).2 ⟨rfl, lines_balanced hd h, by simp⟩⟩
  · exact proposed_accepted_iff hd h hp

end

theorem draft_of_a_win_conserved : ∃ entries, draftEntries (wonDraft ⟨10000, by decide, by decide⟩) = .ok entries ∧
    roleNet .deductions_receivable entries = 0 ∧
    stageTotal .recovered entries + stageTotal .written_off entries = 10000 :=
  ⟨_, rfl, (@draft_conserved (wonDraft ⟨10000, by decide, by decide⟩) _ rfl).2.1 rfl⟩

/-- The chart and the policy under which every account of `namedAccounts` is permitted. -/
def namedChart : List SettlementChartAccount :=
  [⟨"ar".toList, "Receivable".toList, "Accounts Receivable".toList, true⟩,
    ⟨"dr".toList, "Deductions".toList, "Other Current Asset".toList, true⟩,
    ⟨"wo".toList, "Write-off".toList, "Expense".toList, true⟩]

def namedPolicy : SettlementAccountPolicy :=
  ⟨"ar".toList, ["Accounts Receivable".toList], ["Bank".toList]⟩

/-- An open case nothing came back on drafts no line without its found entry; and the largest safe win, its
found entry included, drafts permitted lines that are refused against themselves. -/
theorem unsafe_total_refused :
    (∃ entries, draftEntries { wonDraft ⟨10000, by decide, by decide⟩ with recoveredCents := none, outcome := none } =
        .ok entries ∧ ∃ e, settlementLinesFrom entries namedAccounts false = .error e) ∧
    ∃ entries lines, draftEntries (wonDraft ⟨9007199254740991, by decide, by decide⟩) = .ok entries ∧
      settlementLinesFrom entries namedAccounts true = .ok lines ∧
      (∀ line ∈ lines, Permitted namedChart namedPolicy (trim line.accountExternalId)) ∧
      validateSettlementLines (lines.map (·.proposed)) namedChart lines namedPolicy =
        .ok (.refused [⟨.not_integer_cents, none⟩]) := by
  refine ⟨⟨_, rfl, _, rfl⟩, _, _, rfl, rfl, fun line hline => ?_, ?_⟩
  · exact accountProblem_none.1 (by revert line; decide)
  · decide

end Recouple.Journal
