import Recouple.Core.SettlementRules

/-!
# When a proposal is accepted, and what is stored

* **`validate_sound_complete_iff`**: against lines `settlementLinesFrom` computed, the validation always
  answers, accepts exactly the proposals that keep `Rules` and stores them as `Accepted` says, if and only
  if the computed totals are safe integers.
* **`computed_total_throws`**: `settlementLinesFrom` makes lines whose totals are not.
-/

namespace Recouple.Journal
open Js KeyedFold

/-! ## What is stored -/

/-- How one proposed line is stored. -/
structure StoredAs (chart : List SettlementChartAccount) (line : SettlementLineInput) (lineNo : Nat)
    (stored : StoredSettlementLine) : Prop where
  lineNo : stored.lineNo = lineNo
  account : stored.accountExternalId = trim line.accountExternalId
  debit : line.debitCents = .integer stored.debitCents.val
  credit : line.creditCents = .integer stored.creditCents.val
  memo : normaliseSettlementMemo line.memo = .ok stored.memo
  reported : ∃ account, accountOf chart stored.accountExternalId = some account ∧
    stored.accountNameAsReported = account.name ∧ stored.accountTypeAsReported = account.accountType

def StoredSettlementLine.entry (line : StoredSettlementLine) : Text × Int × Int := line.toSettlementLine.entry

/-- Debits less credits. -/
def movement (sides : List (Int × Int)) : Int := (sides.map fun side => side.1 - side.2).sum

/-- What the lines of an accepted proposal are. -/
structure Accepted (input : List SettlementLineInput) (chart : List SettlementChartAccount)
    (computed : List SettlementLine) (policy : SettlementAccountPolicy) (lines : List StoredSettlementLine) :
    Prop where
  inOrder : List.Forall₂ (fun line stored => StoredAs chart line.1 (line.2 + 1) stored) input.zipIdx lines
  few : 2 ≤ lines.length
  many : lines.length ≤ 20
  oneSided : ∀ line ∈ lines, OneSided line.sides
  balanced : debitSum (lines.map (·.sides)) = creditSum (lines.map (·.sides))
  within : debitSum (lines.map (·.sides)) ≤ debitSum (computed.map (·.sides))
  permitted : ∀ line ∈ lines, Permitted chart policy line.accountExternalId
  receivable : (receivableSides policy (lines.map (·.entry))).Perm (receivableSides policy (computed.map (·.entry)))
  /-- The accounts of a receivable's type are moved by what the computed lines move the receivable by. -/
  moved : movement ((lines.filter fun line => line.accountTypeAsReported ∈ policy.receivableAccountTypes).map (·.sides)) =
    movement (receivableSides policy (computed.map (·.entry)))

section
variable {input : List SettlementLineInput} {chart : List SettlementChartAccount}
  {computed : List SettlementLine} {policy : SettlementAccountPolicy} {lines : List StoredSettlementLine}

theorem storedLine_of_rules {line : SettlementLineInput} (h : LineRules chart policy line) (lineNo : Nat) :
    ∃ stored, storedLine chart line lineNo = some stored ∧ StoredAs chart line lineNo stored := by
  obtain ⟨d, c, hd, hc, -⟩ := id h.sides
  obtain ⟨hid, account, haccount, -⟩ := h.account
  have hamount := amountProblem_none.2 h.sides
  have hdebit : cents line.debitCents.value = .ok d := cents_ok.2 (by rw [hd]; rfl)
  have hcredit : cents line.creditCents.value = .ok c := cents_ok.2 (by rw [hc]; rfl)
  have hmemo := memoProblem_none.2 h.memo
  unfold memoProblem at hmemo
  cases hm : normaliseSettlementMemo line.memo with
  | error code => rw [hm] at hmemo; cases hmemo
  | ok memo =>
    let stored : StoredSettlementLine :=
      { lineNo := lineNo, accountExternalId := trim line.accountExternalId, debitCents := d, creditCents := c,
        memo := memo, accountNameAsReported := account.name, accountTypeAsReported := account.accountType }
    refine ⟨stored, ?_, ⟨rfl, rfl, hd, hc, hm, account, haccount, rfl, rfl⟩⟩
    unfold storedLine
    dsimp only
    rw [hamount, if_neg hid, haccount, hm, hdebit, hcredit]

/-- The lines an accepted proposal stores. -/
def storedLines (chart : List SettlementChartAccount) (input : List SettlementLineInput) :
    List StoredSettlementLine :=
  input.zipIdx.filterMap fun (line, i) => storedLine chart line (i + 1)

theorem storedLines_inOrder (h : ∀ line ∈ input, LineRules chart policy line) :
    List.Forall₂ (fun line stored => StoredAs chart line.1 (line.2 + 1) stored ∧
      LineRules chart policy line.1) input.zipIdx (storedLines chart input) :=
  forall₂_filterMap fun line hl => by
    have hrules := h line.1 (List.fst_mem_of_mem_zipIdx hl)
    obtain ⟨stored, hs, has⟩ := storedLine_of_rules hrules (line.2 + 1)
    exact ⟨stored, hs, has, hrules⟩

theorem StoredAs.sides_eq {line : SettlementLineInput} {lineNo : Nat} {stored : StoredSettlementLine}
    (h : StoredAs chart line lineNo stored) : line.sides = stored.sides := by
  rw [SettlementLineInput.sides, h.debit, h.credit]
  rfl

/-- A stored line has a receivable's type exactly where it is on the receivable account. -/
theorem StoredAs.receivable_iff {line : SettlementLineInput} {lineNo : Nat} {stored : StoredSettlementLine}
    (h : StoredAs chart line lineNo stored) (hp : Permitted chart policy (trim line.accountExternalId)) :
    stored.accountTypeAsReported ∈ policy.receivableAccountTypes ↔
      trim stored.accountExternalId = policy.receivableAccountId := by
  obtain ⟨account, haccount, -, htype⟩ := h.reported
  obtain ⟨-, account', haccount', -, -, hiff⟩ := hp
  rw [h.account, haccount'] at haccount
  cases haccount
  rw [htype, hiff, h.account, trim_trim]

theorem movement_perm {sides sides' : List (Int × Int)} (h : sides.Perm sides') : movement sides = movement sides' :=
  (h.map _).sum_eq

/-- A proposal that keeps the rules is stored as `Accepted` says. -/
theorem Rules.accepted (h : Rules input chart computed policy) :
    Accepted input chart computed policy (storedLines chart input) := by
  have hall := storedLines_inOrder h.lines
  have hlen : (storedLines chart input).length = input.length := by
    rw [← hall.length_eq, List.length_zipIdx]
  have hproposed : ∀ stored ∈ storedLines chart input, ∃ line lineNo, StoredAs chart line lineNo stored ∧
      LineRules chart policy line := fun stored hs => by
    obtain ⟨p, hp, hf⟩ := List.mem_filterMap.1 hs
    have hrules := h.lines p.1 (List.fst_mem_of_mem_zipIdx hp)
    obtain ⟨stored', hs', has⟩ := storedLine_of_rules hrules (p.2 + 1)
    cases hs'.symm.trans hf
    exact ⟨_, _, has, hrules⟩
  have hmap : ∀ {γ : Type} (f : SettlementLineInput → γ) (g : StoredSettlementLine → γ),
      (∀ line lineNo stored, StoredAs chart line lineNo stored → f line = g stored) →
      input.map f = (storedLines chart input).map g := fun f g hfg => by
    rw [← map_eq_of_forall₂ (f := fun line : SettlementLineInput × Nat => f line.1)
      (fun line stored hs => hfg _ _ _ hs.1) hall]
    conv_lhs => rw [← List.zipIdx_map_fst 0 input, List.map_map]
    rfl
  have hsides := hmap (·.sides) (·.sides) fun _ _ _ hs => hs.sides_eq
  have hreceivable : receivableSides policy (input.map (·.entry)) =
      receivableSides policy ((storedLines chart input).map (·.entry)) := by
    have := hmap (fun line => (trim line.accountExternalId, line.sides))
      (fun stored => (trim stored.accountExternalId, stored.sides)) fun line _ stored hs => by
        rw [hs.account, trim_trim, hs.sides_eq]
    have := congrArg (fun l => ((l.filter fun p => p.1 = policy.receivableAccountId).map Prod.snd)) this
    rw [List.filter_map, List.filter_map, List.map_map, List.map_map] at this
    rw [receivableSides, receivableSides, List.filter_map, List.filter_map, List.map_map, List.map_map]
    exact this
  refine ⟨hall.imp fun _ _ hs => hs.1, hlen ▸ h.few, hlen ▸ h.many, ?_, hsides ▸ h.balanced, hsides ▸ h.within,
    ?_, hreceivable ▸ h.receivable, ?_⟩
  · intro stored hs
    obtain ⟨line, _, has, hrules⟩ := hproposed stored hs
    exact has.sides_eq ▸ hrules.oneSided
  · intro stored hs
    obtain ⟨line, _, has, hrules⟩ := hproposed stored hs
    exact has.account ▸ hrules.account
  · have hfilter : ((storedLines chart input).filter fun line =>
        line.accountTypeAsReported ∈ policy.receivableAccountTypes).map (·.sides) =
        receivableSides policy ((storedLines chart input).map (·.entry)) := by
      rw [receivableSides, List.filter_map, List.map_map]
      refine congrArg (List.map _) (List.filter_congr fun stored hs => ?_)
      obtain ⟨line, _, has, hrules⟩ := hproposed stored hs
      exact decide_eq_decide.2 (has.receivable_iff hrules.account)
    rw [hfilter]
    exact movement_perm (hreceivable ▸ h.receivable)

/-! ## When it is accepted -/

theorem together_nil (hc : Computed computed) (hsafe : TotalsSafe (computed.map (·.sides)))
    (hl : ∀ line ∈ input, OneSided line.sides) :
    totalProblems policy computed input = .ok [] ↔
      (debitSum (input.map (·.sides)) = creditSum (input.map (·.sides)) ∧
        debitSum (input.map (·.sides)) ≤ debitSum (computed.map (·.sides))) ∧
      (receivableSides policy (input.map (·.entry))).Perm (receivableSides policy (computed.map (·.entry))) := by
  rw [totalProblems, usableLines_eq hl, ← sumProblems_nil hc hsafe hl, ← receivableProblems_nil hc hl]
  constructor
  · intro h
    obtain ⟨sums, hs, h⟩ := bind_ok.1 h
    obtain ⟨rfl, hr⟩ := List.append_eq_nil_iff.1 (Except.ok.inj h)
    exact ⟨hs, hr⟩
  · rintro ⟨hs, hr⟩
    exact bind_ok.2 ⟨[], hs, by rw [hr]; rfl⟩

theorem perLine_nil : (input.zipIdx.flatMap fun (line, i) =>
      (lineProblems chart policy line).map fun code => (⟨code, some (i + 1)⟩ : SettlementLineProblem)) = [] ↔
    ∀ line ∈ input, LineRules chart policy line := by
  rw [List.flatMap_eq_nil_iff]
  constructor
  · intro h line hl
    obtain ⟨i, hi⟩ := List.mem_iff_getElem?.1 hl
    exact lineProblems_nil.1 (List.map_eq_nil_iff.1 (h _ (List.mk_mem_zipIdx_iff_getElem?.2 hi)))
  · intro h p hp
    exact List.map_eq_nil_iff.2 (lineProblems_nil.2 (h _ (List.fst_mem_of_mem_zipIdx hp)))

theorem count_nil : ((if input.length < SETTLEMENT_MIN_LINES then [SettlementLineProblemCode.too_few_lines] else []) ++
      (if SETTLEMENT_MAX_LINES < input.length then [.too_many_lines] else [])) = [] ↔
    SETTLEMENT_MIN_LINES ≤ input.length ∧ input.length ≤ SETTLEMENT_MAX_LINES := by
  rw [List.append_eq_nil_iff]
  split_ifs <;> simp <;> omega

theorem verdict_accepted {problems : List SettlementLineProblem} {stored : List StoredSettlementLine} :
    (if problems = [] then SettlementLinesVerdict.accepted stored else .refused problems) = .accepted lines ↔
      problems = [] ∧ lines = stored := by
  by_cases h : problems = [] <;> simp [h, eq_comm]

/-- The verdict: the stored lines exactly where the rules hold. -/
theorem validate_accepts (hc : Computed computed) (hsafe : TotalsSafe (computed.map (·.sides))) :
    validateSettlementLines input chart computed policy = .ok (.accepted lines) ↔
      Rules input chart computed policy ∧ lines = storedLines chart input := by
  unfold validateSettlementLines
  dsimp only
  constructor
  · intro h
    obtain ⟨together, ht, h⟩ := bind_ok.1 h
    obtain ⟨hnil, rfl⟩ := verdict_accepted.1 (Except.ok.inj h)
    rw [List.append_eq_nil_iff, List.append_eq_nil_iff, List.map_eq_nil_iff, List.map_eq_nil_iff] at hnil
    obtain ⟨⟨hcount, hper⟩, rfl⟩ := hnil
    have hlines := perLine_nil.1 hper
    have hreadable : (input.all fun line =>
        amountProblem line.debitCents line.creditCents ≠ some .not_integer_cents) = true := by
      rw [List.all_eq_true]
      intro line hl
      simp [amountProblem_none.2 (hlines line hl).sides]
    rw [if_pos hreadable] at ht
    obtain ⟨⟨hb, hw⟩, hr⟩ := (together_nil hc hsafe fun line hl => (hlines line hl).oneSided).1 ht
    exact ⟨⟨(count_nil.1 hcount).1, (count_nil.1 hcount).2, hlines, hb, hw, hr⟩, rfl⟩
  · rintro ⟨h, rfl⟩
    have ht := (together_nil hc hsafe fun line hl => (h.lines line hl).oneSided).2
      ⟨⟨h.balanced, h.within⟩, h.receivable⟩
    refine bind_ok.2 ⟨[], ?_, ?_⟩
    · split
      · exact ht
      · rfl
    · rw [count_nil.2 ⟨h.few, h.many⟩, perLine_nil.2 h.lines]
      rfl

end

/-! ## Computed lines -/

/-- The rows of the stages asked, before they are numbered. -/
def stagedRows (entries : List DraftEntry) (accounts : SettlementAccountIds) (includeFound : Bool) :
    List (Text × Cents × Cents) :=
  (entries.filter fun entry => entry.stage ∈ settlementEntryStages includeFound).flatMap fun entry =>
    entry.lines.flatMap (pushed accounts entry)

section
variable {entries : List DraftEntry} {accounts : SettlementAccountIds} {includeFound : Bool}
  {computed : List SettlementLine}

theorem settlementLinesFrom_ok : settlementLinesFrom entries accounts includeFound = .ok computed ↔
    stagedRows entries accounts includeFound ≠ [] ∧
      computed = (stagedRows entries accounts includeFound).mapIdx fun i row => ⟨i + 1, row.1, row.2.1, row.2.2, none⟩ := by
  change (if stagedRows entries accounts includeFound = [] then _ else _) = _ ↔ _
  by_cases h : stagedRows entries accounts includeFound = []
  · simp [h]
  · rw [if_neg h]
    exact ⟨fun he => ⟨h, (Except.ok.inj he).symm⟩, fun he => congrArg _ he.2.symm⟩

theorem pushed_oneSided {entry : DraftEntry} {line : JournalLine} {row : Text × Cents × Cents}
    (h : row ∈ pushed accounts entry line) : OneSided (row.2.1.val, row.2.2.val) := by
  have hz : ZERO.val = 0 := rfl
  rcases List.mem_append.1 h with h | h
  · split_ifs at h with hpos
    · rw [List.mem_singleton.1 h]
      exact .inl ⟨hpos, hz⟩
    · exact absurd h List.not_mem_nil
  · split_ifs at h with hpos
    · rw [List.mem_singleton.1 h]
      exact .inr ⟨hz, hpos⟩
    · exact absurd h List.not_mem_nil

theorem computed_of_settlementLinesFrom (h : settlementLinesFrom entries accounts includeFound = .ok computed) :
    Computed computed := by
  obtain ⟨-, rfl⟩ := settlementLinesFrom_ok.1 h
  intro line hl
  obtain ⟨i, hi, rfl⟩ := List.mem_mapIdx.1 hl
  obtain ⟨entry, -, hrow⟩ := List.mem_flatMap.1 (List.getElem_mem hi)
  obtain ⟨_, -, hrow⟩ := List.mem_flatMap.1 hrow
  exact pushed_oneSided hrow

/-- Against computed lines, the validation answers, accepts exactly what keeps the rules and stores it as
`Accepted` says, for every chart and every proposal, if and only if the computed totals are safe integers. -/
theorem validate_sound_complete_iff (h : settlementLinesFrom entries accounts includeFound = .ok computed)
    (policy : SettlementAccountPolicy) :
    (∀ (chart : List SettlementChartAccount) (input : List SettlementLineInput),
      ∃ verdict, validateSettlementLines input chart computed policy = .ok verdict ∧
        ((∃ lines, verdict = .accepted lines) ↔ Rules input chart computed policy) ∧
        ∀ lines, verdict = .accepted lines → Accepted input chart computed policy lines) ↔
      TotalsSafe (computed.map (·.sides)) := by
  have hc := computed_of_settlementLinesFrom h
  constructor
  · intro hall
    -- the empty proposal already asks for the computed totals
    obtain ⟨verdict, hv, -⟩ := hall [] []
    obtain ⟨together, ht, -⟩ := bind_ok.1 hv
    obtain ⟨sums, hs, -⟩ := bind_ok.1 ht
    obtain ⟨totals, htotals, -⟩ := bind_ok.1 hs
    exact (settlementTotals_returns (sides_nonneg hc)).1 ⟨totals, htotals⟩
  · intro hsafe chart input
    obtain ⟨verdict, hv⟩ := @validate_returns input chart computed policy hc hsafe
    refine ⟨verdict, hv, ?_, ?_⟩
    · constructor
      · rintro ⟨lines, rfl⟩
        exact ((validate_accepts hc hsafe).1 hv).1
      · intro hr
        exact ⟨_, Except.ok.inj (hv.symm.trans ((validate_accepts hc hsafe).2 ⟨hr, rfl⟩))⟩
    · rintro lines rfl
      obtain ⟨hr, rfl⟩ := (validate_accepts hc hsafe).1 hv
      exact hr.accepted

end

/-- A win of `amount`, all of it recovered. -/
def wonDraft (amount : Cents) : DraftInput :=
  { amountCents := amount, recoveredCents := some amount, outcome := some .won, family := none,
    printedReasonCode := none, map := none }

/-- Accounts named by their role. -/
def namedAccounts : SettlementAccountIds :=
  { arAccountId := "ar".toList, deductionsReceivableAccountId := "dr".toList,
    writeoffByFamily := fun _ => "wo".toList, unclassifiedWriteoff := "wo".toList }

theorem validate_sound_complete_of_a_win : ∃ entries computed,
    draftEntries (wonDraft ⟨10000, by decide, by decide⟩) = .ok entries ∧
      settlementLinesFrom entries namedAccounts true = .ok computed ∧
      ∀ policy chart input, ∃ verdict, validateSettlementLines input chart computed policy = .ok verdict ∧
        ((∃ lines, verdict = .accepted lines) ↔ Rules input chart computed policy) ∧
        ∀ lines, verdict = .accepted lines → Accepted input chart computed policy lines :=
  ⟨_, _, rfl, rfl, fun policy => (@validate_sound_complete_iff
    [pair .found ⟨10000, by decide, by decide⟩ ("Deductions Receivable", .deductions_receivable)
        ("Accounts Receivable", .accounts_receivable) "Reason not chosen yet" none,
      pair .recovered ⟨10000, by decide, by decide⟩ ("Undeposited Funds", .cash)
        ("Deductions Receivable", .deductions_receivable) "Recovered from the payer" none]
    namedAccounts true _ rfl policy).2 (by unfold TotalsSafe InRange; decide)⟩

/-- A win of the largest safe amount, booked with what was found: the computed debits are twice that, and
the validation throws on every proposal whose own amounts are readable. -/
theorem computed_total_throws : ∃ entries computed,
    draftEntries (wonDraft ⟨9007199254740991, by decide, by decide⟩) = .ok entries ∧
      settlementLinesFrom entries namedAccounts true = .ok computed ∧
      ∃ e, validateSettlementLines
        [⟨"ar".toList, .integer 1, .integer 0, none⟩, ⟨"dr".toList, .integer 0, .integer 1, none⟩]
        [⟨"ar".toList, "Receivable".toList, "Accounts Receivable".toList, true⟩,
          ⟨"dr".toList, "Deductions".toList, "Other Current Asset".toList, true⟩]
        computed ⟨"ar".toList, ["Accounts Receivable".toList], ["Bank".toList]⟩ = .error e :=
  ⟨_, _, rfl, rfl, _, rfl⟩

end Recouple.Journal
