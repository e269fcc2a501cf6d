import Recouple.Core.SizingTally

/-!
# The sizing card counts every line once

`deductionsSizing_ok` says that the card is the one its sums make, `deductionsSizing_returns` where it is made.
`sizing_counts_once` reads off them what the card says of its lines, and that their order changes none of its figures.
-/

namespace Recouple.Sizing
open Js KeyedFold SortByKey

variable {T : CaseTables} {chart : List LedgerAccount}

/-! ## The card -/

section
variable {lines lines' : List ProfitAndLossLine} {s s' : SizingState} {pnl : ProfitAndLoss}
  {postingAccountIds : List Text} {sizing sizing' : DeductionsSizing}

theorem tallied_loop (h : lines.foldlM (sizingStep T chart) ⟨ZERO, ZERO, ZERO, ZERO, [], []⟩ = .ok s) :
    Tallied T chart lines s := foldlM_inv tallied_step tallied_nil h

theorem loop_returns :
    (∃ s, lines.foldlM (sizingStep T chart) ⟨ZERO, ZERO, ZERO, ZERO, [], []⟩ = .ok s) ↔
      ∀ part, part <+: lines → ∀ bucket, InRange (sumOf T chart bucket part) := by
  have hreturns := foldlM_returns (I := Tallied T chart) (G := fun done => ∀ bucket, InRange (sumOf T chart bucket done))
    (fun h hstep => tallied_step h hstep) (fun h => sizingStep_returns h) tallied_nil (l := lines)
  rw [hreturns]
  constructor
  · intro h part hpart bucket
    by_cases hnil : part = []
    · subst hnil
      exact tallied_nil.inRange bucket
    · exact h part hnil hpart bucket
  · exact fun h part _ hpart => h part hpart

theorem abs_val (c : Cents) : (abs c).val = |c.val| := by
  unfold abs
  split
  · rename_i h
    exact (abs_of_neg h).symm
  · rename_i h
    exact (abs_of_nonneg (not_lt.1 h)).symm

/-- The rate is the exact quotient, to the nearest basis point and half up. -/
theorem rateBps_eq {part whole : Cents} (hw : 0 < whole.val) (hp : 0 ≤ part.val) :
    rateBps part whole = .ok (round ((part.val * 10000 : ℚ) / whole.val)) := by
  unfold rateBps
  rw [if_neg (not_le.2 hw), if_neg (not_lt.2 hp)]
  obtain ⟨w, hw'⟩ := Int.eq_ofNat_of_zero_le hw.le
  obtain ⟨p, hp'⟩ := Int.eq_ofNat_of_zero_le hp
  have hround := Rounding.round_div (p * 10000) (d := w) (by omega)
  rw [hw', hp', Int.tdiv_eq_ediv_of_nonneg (by positivity)]
  push_cast at hround ⊢
  rw [hround]

/-- The running sums of the receivables' balances. -/
def ReceivableSafe (chart : List LedgerAccount) : Prop :=
  (∀ account ∈ chart, isReceivable account = true → account.currentBalanceCents.isSome = true) →
    ∀ part, part <+: chart.filter isReceivable →
      InRange (part.map fun account => (account.currentBalanceCents.getD ZERO).val).sum

theorem balancesOf_returns :
    (∃ balances, balancesOf T chart postingAccountIds = .ok balances) ↔ ReceivableSafe chart := by
  have hall : (((chart.filter isReceivable).map balanceOf).all fun one => one.balanceCents.isSome) = true ↔
      ∀ account ∈ chart, isReceivable account = true → account.currentBalanceCents.isSome = true := by
    rw [List.all_eq_true, List.forall_mem_map]
    simp only [List.mem_filter, and_imp]
    rfl
  have hzero : ZERO.val = 0 := rfl
  have hsum : (∃ total, ((chart.filter isReceivable).map balanceOf).foldlM
        (fun total one => add total (one.balanceCents.getD ZERO)) ZERO = .ok total) ↔
      ∀ part, part <+: chart.filter isReceivable →
        InRange (part.map fun account => (account.currentBalanceCents.getD ZERO).val).sum := by
    rw [List.foldlM_map, foldlM_returns
      (I := fun done (total : Cents) =>
        total.val = (done.map fun account => (account.currentBalanceCents.getD ZERO).val).sum)
      (G := fun done => InRange (done.map fun account => (account.currentBalanceCents.getD ZERO).val).sum)]
    · constructor
      · intro h part hpart
        by_cases hnil : part = []
        · subst hnil
          exact ZERO.inRange
        · exact h part hnil hpart
      · exact fun h part _ hpart => h part hpart
    · intro done total account total' htotal hstep
      rw [add_ok.1 hstep, htotal]
      simp [balanceOf]
    · intro done total account htotal
      rw [List.map_append, List.sum_append, ← htotal]
      constructor
      · rintro ⟨total', hstep⟩
        rw [List.map_singleton, List.sum_singleton]
        exact (add_ok.1 hstep) ▸ total'.inRange
      · intro hr
        rw [List.map_singleton, List.sum_singleton] at hr
        exact add_returns hr
    · exact hzero
  have hbalances : (∃ balances, balancesOf T chart postingAccountIds = .ok balances) ↔
      ∃ total, receivableTotal ((chart.filter isReceivable).map balanceOf) = .ok total := by
    unfold balancesOf
    constructor
    · rintro ⟨balances, h⟩
      obtain ⟨total, htotal, -⟩ := bind_ok.1 h
      exact ⟨total, htotal⟩
    · rintro ⟨total, htotal⟩
      exact ⟨_, bind_ok.2 ⟨total, htotal, rfl⟩⟩
  rw [hbalances]
  unfold receivableTotal ReceivableSafe
  by_cases hsome : (((chart.filter isReceivable).map balanceOf).all fun one => one.balanceCents.isSome) = true
  · rw [if_pos hsome, forall_prop_of_true (hall.1 hsome), ← hsum]
    constructor
    · rintro ⟨total, h⟩
      obtain ⟨t, ht, -⟩ := map_ok.1 h
      exact ⟨t, ht⟩
    · rintro ⟨t, ht⟩
      exact ⟨_, map_ok.2 ⟨t, ht, rfl⟩⟩
  · rw [if_neg hsome]
    exact iff_of_true ⟨_, rfl⟩ fun h => absurd (hall.2 h) hsome

/-- The card that the sums make. -/
def card (pnl : ProfitAndLoss) (s : SizingState) (deductionsCents : Cents) (balances : SizingBalances) :
    DeductionsSizing where
  window := pnl.window
  basis := pnl.basis
  currency := pnl.currency
  grossSalesCents := s.grossSalesCents
  otherIncomeCents := s.otherIncomeCents
  revenueDeductionsCents := s.revenueDeductionsCents
  expenseDeductionsCents := s.expenseDeductionsCents
  deductionsCents
  bps := if 0 < s.grossSalesCents.val then
      some (round ((deductionsCents.val * 10000 : ℚ) / s.grossSalesCents.val))
    else none
  contributions := s.perAccount.insertionSort fun a b => byContribution a b ≤ 0
  unmatchedLines := s.unmatchedLines
  balances

theorem deductionsSizing_ok : deductionsSizing T chart pnl postingAccountIds = .ok sizing ↔
    ∃ s deductionsCents balances, pnl.lines.foldlM (sizingStep T chart) ⟨ZERO, ZERO, ZERO, ZERO, [], []⟩ = .ok s ∧
      deductionsCents.val = |s.revenueDeductionsCents.val| + |s.expenseDeductionsCents.val| ∧
      balancesOf T chart postingAccountIds = .ok balances ∧ sizing = card pnl s deductionsCents balances := by
  have hrate : ∀ {s : SizingState} {d : Cents} {bps : Option Int},
      d.val = |s.revenueDeductionsCents.val| + |s.expenseDeductionsCents.val| →
      (bpsOf d s.grossSalesCents = .ok bps ↔
        bps = if 0 < s.grossSalesCents.val then some (round ((d.val * 10000 : ℚ) / s.grossSalesCents.val))
          else none) := by
    intro s d bps hd
    unfold bpsOf
    split
    · rename_i hpos
      have hnonneg : 0 ≤ d.val := by rw [hd]; positivity
      rw [rateBps_eq hpos hnonneg]
      exact ⟨fun h => (Except.ok.inj h).symm, fun h => h ▸ rfl⟩
    · exact ⟨fun h => (Except.ok.inj h).symm, fun h => h ▸ rfl⟩
  unfold deductionsSizing
  constructor
  · intro h
    obtain ⟨s, hs, h⟩ := bind_ok.1 h
    obtain ⟨d, hd, h⟩ := bind_ok.1 h
    obtain ⟨balances, hbalances, h⟩ := bind_ok.1 h
    obtain ⟨bps, hbps, h⟩ := bind_ok.1 h
    rw [add_ok, abs_val, abs_val] at hd
    rw [hrate hd] at hbps
    cases h
    exact ⟨s, d, balances, hs, hd, hbalances, by rw [hbps]; rfl⟩
  · rintro ⟨s, d, balances, hs, hd, hbalances, rfl⟩
    refine bind_ok.2 ⟨s, hs, bind_ok.2 ⟨d, ?_, bind_ok.2 ⟨balances, hbalances, bind_ok.2 ⟨_, (hrate hd).2 rfl, rfl⟩⟩⟩⟩
    rw [add_ok, abs_val, abs_val, hd]

/-- The sums stay in the safe range: what the lines add up to towards anything as they come, the deductions of both
sides, and the receivables' balances. -/
structure SumsSafe (T : CaseTables) (chart : List LedgerAccount) (lines : List ProfitAndLossLine) : Prop where
  runs : ∀ part, part <+: lines → ∀ bucket, InRange (sumOf T chart bucket part)
  deductions : InRange (|sumOf T chart (.deductions .revenue) lines| + |sumOf T chart (.deductions .expense) lines|)
  receivable : ReceivableSafe chart

theorem deductionsSizing_returns :
    (∃ sizing, deductionsSizing T chart pnl postingAccountIds = .ok sizing) ↔ SumsSafe T chart pnl.lines := by
  constructor
  · rintro ⟨sizing, h⟩
    obtain ⟨s, d, balances, hs, hd, hbalances, -⟩ := deductionsSizing_ok.1 h
    have htally := tallied_loop hs
    rw [htally.revenue, htally.expense] at hd
    exact ⟨loop_returns.1 ⟨s, hs⟩, hd ▸ d.inRange, balancesOf_returns.1 ⟨balances, hbalances⟩⟩
  · intro h
    obtain ⟨s, hs⟩ := loop_returns.2 h.runs
    obtain ⟨balances, hbalances⟩ : ∃ balances, balancesOf T chart postingAccountIds = .ok balances :=
      balancesOf_returns.2 h.receivable
    have htally := tallied_loop hs
    have hrange := h.deductions
    rw [← htally.revenue, ← htally.expense] at hrange
    exact ⟨_, deductionsSizing_ok.2 ⟨s, ⟨_, hrange.1, hrange.2⟩, balances, hs, rfl, hbalances, rfl⟩⟩

/-- The card is that of its lines. -/
structure Sized (T : CaseTables) (chart : List LedgerAccount) (lines : List ProfitAndLossLine)
    (sizing : DeductionsSizing) : Prop where
  sales : sizing.grossSalesCents.val = sumOf T chart .sales lines
  otherIncome : sizing.otherIncomeCents.val = sumOf T chart .otherIncome lines
  revenue : sizing.revenueDeductionsCents.val = sumOf T chart (.deductions .revenue) lines
  expense : sizing.expenseDeductionsCents.val = sumOf T chart (.deductions .expense) lines
  deductions : sizing.deductionsCents.val = |sizing.revenueDeductionsCents.val| + |sizing.expenseDeductionsCents.val|
  bps : sizing.bps = if 0 < sizing.grossSalesCents.val then
      some (round ((sizing.deductionsCents.val * 10000 : ℚ) / sizing.grossSalesCents.val))
    else none
  unmatched : sizing.unmatchedLines = lines.filterMap (unmatchedLine T chart)
  once : (sizing.contributions.map (·.account.externalId)).Nodup
  named : ∀ account side, (∃ c ∈ sizing.contributions, c.account = account ∧ c.side = side) ↔
    ∃ line ∈ lines, destination T chart line = .deduction account side
  amounts : ∀ c ∈ sizing.contributions, c.amountCents.val = sumOf T chart (.ofAccount c.account.externalId) lines
  sides : sideSum .revenue sizing.contributions = sizing.revenueDeductionsCents.val ∧
    sideSum .expense sizing.contributions = sizing.expenseDeductionsCents.val

theorem sideSum_perm {l l' : List SizingContribution} (h : l.Perm l') (side : Side) : sideSum side l = sideSum side l' :=
  ((h.filter _).map _).sum_eq

theorem sized_of_ok (h : deductionsSizing T chart pnl postingAccountIds = .ok sizing) :
    Sized T chart pnl.lines sizing := by
  obtain ⟨s, d, balances, hs, hd, -, rfl⟩ := deductionsSizing_ok.1 h
  have htally := tallied_loop hs
  have hsorted : (s.perAccount.insertionSort fun a b => byContribution a b ≤ 0).Perm s.perAccount :=
    List.perm_insertionSort _ _
  refine ⟨htally.sales, htally.otherIncome, htally.revenue, htally.expense, hd, rfl, htally.unmatched,
    (hsorted.map _).nodup_iff.2 htally.distinct, fun account side => ?_,
    fun c hc => htally.amounts c (hsorted.mem_iff.1 hc), ?_, ?_⟩
  · rw [← htally.named]
    constructor
    · rintro ⟨c, hc, hrest⟩
      exact ⟨c, hsorted.mem_iff.1 hc, hrest⟩
    · rintro ⟨c, hc, hrest⟩
      exact ⟨c, hsorted.mem_iff.2 hc, hrest⟩
  · exact (sideSum_perm hsorted _).trans ((htally.sides _).trans htally.revenue.symm)
  · exact (sideSum_perm hsorted _).trans ((htally.sides _).trans htally.expense.symm)

theorem bySide_compares (a b : Side) :
    Compares (bySide a b) (if a = .revenue then (0 : Int) else 1) (if b = .revenue then 0 else 1) := by
  cases a <;> cases b <;> exact ⟨by decide, by decide⟩

theorem byContribution_compares (a b : SizingContribution) : Compares (byContribution a b)
    (toLex (if a.side = .revenue then (0 : Int) else 1,
      toLex (codeUnits a.account.fullyQualifiedName, codeUnits a.account.externalId)))
    (toLex (if b.side = .revenue then (0 : Int) else 1,
      toLex (codeUnits b.account.fullyQualifiedName, codeUnits b.account.externalId))) :=
  (bySide_compares _ _).orElse ((Books.compareText_compares _ _).orElse (Books.compareText_compares _ _))

theorem contributions_congr {l l' : List SizingContribution} (hp : l.Perm l')
    (hn : (l.map (·.account.externalId)).Nodup) :
    (l.insertionSort fun a b => byContribution a b ≤ 0) = l'.insertionSort fun a b => byContribution a b ≤ 0 := by
  refine insertionSort_congr_of_apart (fun a b => (byContribution_compares a b).le) hp fun a ha b hb hkey => ?_
  have hinner := congrArg Prod.snd (toLex_inj.1 (congrArg Prod.snd (toLex_inj.1 hkey)))
  have hid : a.account.externalId = b.account.externalId := codeUnits_injective hinner
  exact List.inj_on_of_nodup_map hn ha hb hid

/-- The contributions to two tallies of the same lines are the same. -/
theorem mem_perAccount_of_perm (h : Tallied T chart lines s) (h' : Tallied T chart lines' s') (hp : lines.Perm lines')
    {c : SizingContribution} (hc : c ∈ s.perAccount) : c ∈ s'.perAccount := by
  obtain ⟨line, hline, hd⟩ := (h.named c.account c.side).1 ⟨c, hc, rfl, rfl⟩
  obtain ⟨c', hc', haccount, hside⟩ := (h'.named c.account c.side).2 ⟨line, hp.mem_iff.1 hline, hd⟩
  have hamount : c'.amountCents = c.amountCents := Cents.ext (by
    rw [h'.amounts c' hc', haccount, ← sumOf_perm hp, h.amounts c hc])
  have hsame : c' = c := by
    cases c
    cases c'
    simp only at haccount hside hamount
    subst haccount hside hamount
    rfl
  exact hsame ▸ hc'

/-- Two cards of the same figures, whose unmatched lines are listed in another order. -/
def SameFigures (sizing sizing' : DeductionsSizing) : Prop :=
  { sizing' with unmatchedLines := sizing.unmatchedLines } = sizing ∧ sizing.unmatchedLines.Perm sizing'.unmatchedLines

theorem sameFigures_of_perm (hp : pnl.lines.Perm lines')
    (h : deductionsSizing T chart pnl postingAccountIds = .ok sizing)
    (h' : deductionsSizing T chart { pnl with lines := lines' } postingAccountIds = .ok sizing') :
    SameFigures sizing sizing' := by
  obtain ⟨s, d, balances, hs, hd, hbalances, rfl⟩ := deductionsSizing_ok.1 h
  obtain ⟨s', d', balances', hs', hd', hbalances', rfl⟩ := deductionsSizing_ok.1 h'
  have htally := tallied_loop hs
  have htally' := tallied_loop hs'
  have hgross : s'.grossSalesCents = s.grossSalesCents :=
    Cents.ext (htally'.sales.trans ((sumOf_perm hp _).symm.trans htally.sales.symm))
  have hother : s'.otherIncomeCents = s.otherIncomeCents :=
    Cents.ext (htally'.otherIncome.trans ((sumOf_perm hp _).symm.trans htally.otherIncome.symm))
  have hrevenue : s'.revenueDeductionsCents = s.revenueDeductionsCents :=
    Cents.ext (htally'.revenue.trans ((sumOf_perm hp _).symm.trans htally.revenue.symm))
  have hexpense : s'.expenseDeductionsCents = s.expenseDeductionsCents :=
    Cents.ext (htally'.expense.trans ((sumOf_perm hp _).symm.trans htally.expense.symm))
  have hdeductions : d' = d := Cents.ext (by rw [hd, hd', hrevenue, hexpense])
  have hcontributions : s'.perAccount.Perm s.perAccount :=
    (List.perm_ext_iff_of_nodup htally'.distinct.of_map htally.distinct.of_map).2 fun c =>
      ⟨mem_perAccount_of_perm htally' htally hp.symm, mem_perAccount_of_perm htally htally' hp⟩
  cases hbalances.symm.trans hbalances'
  refine ⟨?_, ?_⟩
  · unfold card
    dsimp only
    rw [hgross, hother, hrevenue, hexpense, hdeductions, contributions_congr hcontributions htally'.distinct]
  · show s.unmatchedLines.Perm s'.unmatchedLines
    rw [htally.unmatched, htally'.unmatched]
    exact hp.filterMap _

/-- **The sizing card counts every line once.** The card is made exactly where its sums stay in the safe range; each
line goes to one place, and the figures are the sums of the lines that go there; the contributions are those of the
accounts, once each, and add up to the two totals; and the order of the lines changes no figure. -/
theorem sizing_counts_once (hids : (chart.map (·.externalId)).Nodup) (pnl : ProfitAndLoss)
    (postingAccountIds : List Text) :
    ((∃ sizing, deductionsSizing T chart pnl postingAccountIds = .ok sizing) ↔ SumsSafe T chart pnl.lines) ∧
    (∀ line d, Goes T chart line d ↔ d = destination T chart line) ∧
    ∀ sizing, deductionsSizing T chart pnl postingAccountIds = .ok sizing → Sized T chart pnl.lines sizing ∧
      ∀ lines', pnl.lines.Perm lines' →
        (∀ sizing', deductionsSizing T chart { pnl with lines := lines' } postingAccountIds = .ok sizing' →
          SameFigures sizing sizing') ∧
        ((∀ part, part.Subperm pnl.lines → ∀ bucket, InRange (sumOf T chart bucket part)) →
          ∃ sizing', deductionsSizing T chart { pnl with lines := lines' } postingAccountIds = .ok sizing') := by
  refine ⟨deductionsSizing_returns, fun line d => goes_iff hids, fun sizing h => ⟨sized_of_ok h, fun lines' hp =>
    ⟨fun sizing' h' => sameFigures_of_perm hp h h', fun hparts => ?_⟩⟩⟩
  have hsafe := deductionsSizing_returns.1 ⟨sizing, h⟩
  refine deductionsSizing_returns.2 ⟨fun part hpart bucket => ?_, ?_, hsafe.receivable⟩
  · exact hparts part (hpart.sublist.subperm.trans hp.symm.subperm) bucket
  · show InRange (|sumOf T chart (.deductions .revenue) lines'| + |sumOf T chart (.deductions .expense) lines'|)
    rw [← sumOf_perm hp, ← sumOf_perm hp]
    exact hsafe.deductions

end

/-! ## A small company -/

def salesAccount : LedgerAccount :=
  ⟨.qbo, "1".toList, none, "Sales".toList, "Sales".toList, "Income".toList, none,
    some REVENUE_CLASSIFICATION, true, none⟩

def promoAccount : LedgerAccount :=
  ⟨.qbo, "2".toList, none, "Promo".toList, "Sales:Promo".toList, "Income".toList, none,
    some REVENUE_CLASSIFICATION, true, none⟩

def smallCompany : ProfitAndLoss where
  sourceKind := .qbo
  window := ⟨"2026-01-01".toList, "2026-12-31".toList⟩
  basis := none
  currency := none
  lines := [⟨some "1".toList, "Sales".toList, SALES_SECTION, ⟨10000, by decide, by decide⟩⟩,
    ⟨some "2".toList, "Promo".toList, SALES_SECTION, ⟨-333, by decide, by decide⟩⟩]

/-- Its card: a rate of 3.33%. -/
theorem small_company_sized : ∃ sizing,
    deductionsSizing asciiCase [salesAccount, promoAccount] smallCompany [] = .ok sizing ∧
    sizing.bps = some 333 ∧ Sized asciiCase [salesAccount, promoAccount] smallCompany.lines sizing := by
  have hids : ([salesAccount, promoAccount].map (·.externalId)).Nodup := by decide
  cases h : deductionsSizing asciiCase [salesAccount, promoAccount] smallCompany [] with
  | error e =>
    have hok : (deductionsSizing asciiCase [salesAccount, promoAccount] smallCompany []).toOption.isSome = true := by
      decide +kernel
    rw [h] at hok
    cases hok
  | ok sizing =>
    have hbps : (deductionsSizing asciiCase [salesAccount, promoAccount] smallCompany []).map (·.bps) =
        .ok (some 333) := by
      decide +kernel
    rw [h] at hbps
    exact ⟨sizing, rfl, Except.ok.inj hbps, ((sizing_counts_once hids smallCompany []).2.2 sizing h).1⟩

end Recouple.Sizing
