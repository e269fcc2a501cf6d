import Recouple.Core.Sizing
import Recouple.Core.ReconcileStability

/-!
# What the lines of a profit and loss add up to

`destination` is where a line goes, and `Goes` says why. The loop is followed by `Tallied`: each figure is the sum of
the lines that go there, and each account that looks like deductions has one contribution, of its own lines. A turn of
the loop throws where one of these sums leaves the safe range (`sizingStep_returns`).
-/

namespace Recouple.Sizing
open Js KeyedFold

variable {T : CaseTables} {chart : List LedgerAccount}

/-! ## Where a line goes -/

inductive Destination
  | grossSales
  | otherIncome
  | deduction (account : LedgerAccount) (side : Side)
  | outside
  | unmatched (reason : UnmatchedReason)
deriving DecidableEq

/-- Where a line goes, and why. -/
inductive Goes (T : CaseTables) (chart : List LedgerAccount) (line : ProfitAndLossLine) : Destination → Prop
  | noAccount (h : line.accountExternalId = none) : Goes T chart line (.unmatched .no_account_id)
  | notInChart {id : Text} (h : line.accountExternalId = some id) (hchart : ∀ account ∈ chart, account.externalId ≠ id) :
    Goes T chart line (.unmatched .not_in_chart)
  | neither {account : LedgerAccount} (hchart : account ∈ chart) (h : line.accountExternalId = some account.externalId)
    (hside : account.classification ≠ some REVENUE_CLASSIFICATION ∧
      account.classification ≠ some EXPENSE_CLASSIFICATION) :
    Goes T chart line (.unmatched .not_revenue_or_expense)
  | sale {account : LedgerAccount} (hchart : account ∈ chart) (h : line.accountExternalId = some account.externalId)
    (hside : account.classification = some REVENUE_CLASSIFICATION) (hlike : isDeductions T account = false)
    (hsection : line.«section» = SALES_SECTION) : Goes T chart line .grossSales
  | other {account : LedgerAccount} (hchart : account ∈ chart) (h : line.accountExternalId = some account.externalId)
    (hside : account.classification = some REVENUE_CLASSIFICATION) (hlike : isDeductions T account = false)
    (hsection : line.«section» ≠ SALES_SECTION) : Goes T chart line .otherIncome
  | expense {account : LedgerAccount} (hchart : account ∈ chart) (h : line.accountExternalId = some account.externalId)
    (hside : account.classification = some EXPENSE_CLASSIFICATION) (hlike : isDeductions T account = false) :
    Goes T chart line .outside
  | deduction {account : LedgerAccount} {side : Side} (hchart : account ∈ chart)
    (h : line.accountExternalId = some account.externalId) (hside : sideOf account = some side)
    (hlike : isDeductions T account = true) : Goes T chart line (.deduction account side)

variable (T chart) in
def destination (line : ProfitAndLossLine) : Destination :=
  match line.accountExternalId with
  | none => .unmatched .no_account_id
  | some id =>
    match accountOf chart id with
    | none => .unmatched .not_in_chart
    | some account =>
      match sideOf account with
      | none => .unmatched .not_revenue_or_expense
      | some side =>
        if isDeductions T account then .deduction account side
        else
          match side with
          | .revenue => if line.«section» = SALES_SECTION then .grossSales else .otherIncome
          | .expense => .outside

theorem accountOf_mem {id : Text} {account : LedgerAccount} (h : accountOf chart id = some account) :
    account ∈ chart ∧ account.externalId = id :=
  ⟨List.mem_reverse.1 (List.mem_of_find?_eq_some h), by simpa using List.find?_some h⟩

theorem accountOf_none {id : Text} : accountOf chart id = none ↔ ∀ account ∈ chart, account.externalId ≠ id := by
  simp [accountOf, List.find?_eq_none]

theorem accountOf_eq (hids : (chart.map (·.externalId)).Nodup) {account : LedgerAccount} (h : account ∈ chart) :
    accountOf chart account.externalId = some account := by
  cases hfound : accountOf chart account.externalId with
  | none => exact absurd rfl (accountOf_none.1 hfound account h)
  | some other =>
    obtain ⟨hmem, hid⟩ := accountOf_mem hfound
    rw [List.inj_on_of_nodup_map hids hmem h hid]

theorem sideOf_none {account : LedgerAccount} : sideOf account = none ↔
    account.classification ≠ some REVENUE_CLASSIFICATION ∧ account.classification ≠ some EXPENSE_CLASSIFICATION := by
  unfold sideOf
  split
  · simp_all
  · split
    · simp_all
    · simp_all

theorem sideOf_revenue {account : LedgerAccount} :
    sideOf account = some .revenue ↔ account.classification = some REVENUE_CLASSIFICATION := by
  unfold sideOf
  split
  · simp_all
  · split
    · simp_all
    · simp_all

theorem sideOf_expense {account : LedgerAccount} :
    sideOf account = some .expense ↔ account.classification = some EXPENSE_CLASSIFICATION := by
  have hne : REVENUE_CLASSIFICATION ≠ EXPENSE_CLASSIFICATION := by decide
  unfold sideOf
  split
  · rename_i h
    rw [h]
    simp [hne]
  · split
    · simp_all
    · simp_all

theorem goes_destination (line : ProfitAndLossLine) : Goes T chart line (destination T chart line) := by
  unfold destination
  split
  · rename_i h
    exact .noAccount h
  · rename_i id h
    split
    · rename_i hnone
      exact .notInChart h (accountOf_none.1 hnone)
    · rename_i account haccount
      obtain ⟨hmem, rfl⟩ := accountOf_mem haccount
      split
      · rename_i hside
        exact .neither hmem h (sideOf_none.1 hside)
      · rename_i side hside
        split
        · rename_i hlike
          exact .deduction hmem h hside hlike
        · rename_i hlike
          rw [Bool.not_eq_true] at hlike
          cases side with
          | expense => exact .expense hmem h (sideOf_expense.1 hside) hlike
          | revenue =>
            dsimp only
            split
            · rename_i hsection
              exact .sale hmem h (sideOf_revenue.1 hside) hlike hsection
            · rename_i hsection
              exact .other hmem h (sideOf_revenue.1 hside) hlike hsection

/-- A line goes to one place alone. -/
theorem goes_iff (hids : (chart.map (·.externalId)).Nodup) {line : ProfitAndLossLine} {d : Destination} :
    Goes T chart line d ↔ d = destination T chart line := by
  constructor
  · intro h
    unfold destination
    cases h with
    | noAccount h => rw [h]
    | notInChart h hchart =>
      rw [h]
      dsimp only
      rw [accountOf_none.2 hchart]
    | neither hchart h hside =>
      rw [h]
      dsimp only
      rw [accountOf_eq hids hchart]
      dsimp only
      rw [sideOf_none.2 hside]
    | sale hchart h hside hlike hsection =>
      rw [h]
      dsimp only
      rw [accountOf_eq hids hchart]
      dsimp only
      rw [sideOf_revenue.2 hside, hlike, hsection]
      rfl
    | other hchart h hside hlike hsection =>
      rw [h]
      dsimp only
      rw [accountOf_eq hids hchart]
      dsimp only
      rw [sideOf_revenue.2 hside, hlike]
      exact (if_neg hsection).symm
    | expense hchart h hside hlike =>
      rw [h]
      dsimp only
      rw [accountOf_eq hids hchart]
      dsimp only
      rw [sideOf_expense.2 hside, hlike]
      rfl
    | deduction hchart h hside hlike =>
      rw [h]
      dsimp only
      rw [accountOf_eq hids hchart]
      dsimp only
      rw [hside, hlike]
      rfl
  · rintro rfl
    exact goes_destination line

/-- An account that a line's deduction goes to is the one its id names. -/
theorem destination_deduction {line : ProfitAndLossLine} {account : LedgerAccount} {side : Side}
    (h : destination T chart line = .deduction account side) :
    accountOf chart account.externalId = some account ∧ sideOf account = some side := by
  unfold destination at h
  split at h
  · cases h
  · split at h
    · cases h
    · rename_i found hfound
      split at h
      · cases h
      · rename_i side' hside
        split at h
        · cases h
          exact ⟨(accountOf_mem hfound).2 ▸ hfound, hside⟩
        · split at h
          · split at h
            · cases h
            · cases h
          · cases h

/-- What one turn of the loop does with a line. -/
theorem sizingStep_eq (s : SizingState) (line : ProfitAndLossLine) : sizingStep T chart s line =
    match destination T chart line with
    | .grossSales => (add s.grossSalesCents line.amountCents).map fun c => { s with grossSalesCents := c }
    | .otherIncome => (add s.otherIncomeCents line.amountCents).map fun c => { s with otherIncomeCents := c }
    | .deduction account side => deductionStep s account side line.amountCents
    | .outside => .ok s
    | .unmatched reason => .ok { s with unmatchedLines := s.unmatchedLines ++ [⟨line, reason⟩] } := by
  unfold sizingStep destination
  cases line.accountExternalId with
  | none => rfl
  | some id =>
    dsimp only
    cases accountOf chart id with
    | none => rfl
    | some account =>
      dsimp only
      cases sideOf account with
      | none => rfl
      | some side =>
        dsimp only
        cases isDeductions T account with
        | true => rfl
        | false =>
          cases side with
          | expense => rfl
          | revenue =>
            dsimp only
            by_cases hsection : line.«section» = SALES_SECTION
            · simp [hsection]
            · simp [hsection]

/-! ## Sums -/

/-- What a line can count towards. -/
inductive Bucket
  | sales
  | otherIncome
  | deductions (side : Side)
  | ofAccount (id : Text)
deriving DecidableEq

def Bucket.takes : Bucket → Destination → Bool
  | .sales, .grossSales => true
  | .otherIncome, .otherIncome => true
  | .deductions side, .deduction _ side' => decide (side = side')
  | .ofAccount id, .deduction account _ => decide (account.externalId = id)
  | _, _ => false

variable (T chart) in
/-- The sum of the lines that count towards the bucket. -/
def sumOf (bucket : Bucket) (lines : List ProfitAndLossLine) : Int :=
  ((lines.filter fun line => bucket.takes (destination T chart line)).map (·.amountCents.val)).sum

theorem sumOf_concat (bucket : Bucket) (lines : List ProfitAndLossLine) (line : ProfitAndLossLine) :
    sumOf T chart bucket (lines ++ [line]) =
      sumOf T chart bucket lines + if bucket.takes (destination T chart line) then line.amountCents.val else 0 := by
  unfold sumOf
  rw [List.filter_append, List.map_append, List.sum_append]
  cases h : bucket.takes (destination T chart line) <;> simp [h]

theorem sumOf_perm {lines lines' : List ProfitAndLossLine} (h : lines.Perm lines') (bucket : Bucket) :
    sumOf T chart bucket lines = sumOf T chart bucket lines' := ((h.filter _).map _).sum_eq

theorem add_ok {a b c : Cents} : add a b = .ok c ↔ c.val = a.val + b.val := by
  rw [add, mapError_ok, addCents_ok]

theorem add_returns {a b : Cents} (h : InRange (a.val + b.val)) : ∃ c, add a b = .ok c :=
  ⟨⟨_, h.1, h.2⟩, add_ok.2 rfl⟩

/-! ## Contributions -/

section
variable {new : SizingContribution} {l : List SizingContribution}

theorem mem_setContribution (hn : (l.map (·.account.externalId)).Nodup) {c : SizingContribution} :
    c ∈ setContribution new l ↔ c = new ∨ c ∈ l ∧ c.account.externalId ≠ new.account.externalId := by
  induction l with
  | nil => simp [setContribution]
  | cons seen rest ih =>
    rw [List.map_cons, List.nodup_cons] at hn
    unfold setContribution
    split
    · rename_i hid
      rw [List.mem_cons, List.mem_cons]
      refine or_congr_right ⟨fun hc => ⟨.inr hc, fun he => hn.1 ?_⟩, ?_⟩
      · rw [hid, ← he]
        exact List.mem_map_of_mem hc
      · rintro ⟨rfl | hc, hne⟩
        · exact absurd hid hne
        · exact hc
    · rename_i hid
      rw [List.mem_cons, ih hn.2, List.mem_cons]
      constructor
      · rintro (rfl | rfl | ⟨hc, hne⟩)
        · exact .inr ⟨.inl rfl, hid⟩
        · exact .inl rfl
        · exact .inr ⟨.inr hc, hne⟩
      · rintro (rfl | ⟨rfl | hc, hne⟩)
        · exact .inr (.inl rfl)
        · exact .inl rfl
        · exact .inr (.inr ⟨hc, hne⟩)

theorem nodup_setContribution (hn : (l.map (·.account.externalId)).Nodup) :
    ((setContribution new l).map (·.account.externalId)).Nodup := by
  induction l with
  | nil => simp [setContribution]
  | cons seen rest ih =>
    have hrest := (List.nodup_cons.1 hn).2
    unfold setContribution
    split
    · rename_i hid
      rw [List.map_cons, ← hid]
      exact hn
    · rename_i hid
      rw [List.map_cons]
      refine List.nodup_cons.2 ⟨fun hmem => ?_, ih hrest⟩
      obtain ⟨c, hc, hcid⟩ := List.mem_map.1 hmem
      rcases (mem_setContribution hrest).1 hc with rfl | ⟨hc, -⟩
      · exact hid hcid.symm
      · exact (List.nodup_cons.1 hn).1 (List.mem_map.2 ⟨c, hc, hcid⟩)

theorem amountSeen_of_mem (hn : (l.map (·.account.externalId)).Nodup) {c : SizingContribution} (hc : c ∈ l) :
    amountSeen l c.account.externalId = c.amountCents := by
  obtain ⟨found, hfound⟩ : ∃ found, (l.find? fun seen => seen.account.externalId = c.account.externalId) = some found :=
    Option.isSome_iff_exists.1 (List.find?_isSome.2 ⟨c, hc, by simp⟩)
  have hid : found.account.externalId = c.account.externalId := by simpa using List.find?_some hfound
  have hsame : found = c := List.inj_on_of_nodup_map hn (List.mem_of_find?_eq_some hfound) hc hid
  rw [amountSeen, hfound, hsame]
  rfl

theorem amountSeen_of_new {id : Text} (h : ∀ c ∈ l, c.account.externalId ≠ id) : amountSeen l id = ZERO := by
  have hnone : (l.find? fun seen => seen.account.externalId = id) = none := by simpa using h
  rw [amountSeen, hnone]
  rfl

/-- The contributions of a side, added up. -/
def sideSum (side : Side) (l : List SizingContribution) : Int :=
  ((l.filter fun c => c.side = side).map (·.amountCents.val)).sum

theorem sideSum_cons (side : Side) (c : SizingContribution) (l : List SizingContribution) :
    sideSum side (c :: l) = (if c.side = side then c.amountCents.val else 0) + sideSum side l := by
  unfold sideSum
  by_cases h : c.side = side <;> simp [h]

theorem sideSum_setContribution (side : Side)
    (hside : ∀ c ∈ l, c.account.externalId = new.account.externalId → c.side = new.side) :
    sideSum side (setContribution new l) = sideSum side l +
      if new.side = side then new.amountCents.val - (amountSeen l new.account.externalId).val else 0 := by
  induction l with
  | nil =>
    have hzero : ZERO.val = 0 := rfl
    rw [setContribution, sideSum_cons, amountSeen_of_new (by simp), hzero]
    simp [sideSum]
  | cons seen rest ih =>
    rw [List.forall_mem_cons] at hside
    by_cases hid : seen.account.externalId = new.account.externalId
    · have hseen : amountSeen (seen :: rest) new.account.externalId = seen.amountCents := by
        simp [amountSeen, hid]
      rw [setContribution, if_pos hid, sideSum_cons, sideSum_cons, hseen, hside.1 hid]
      split
      · omega
      · omega
    · have hseen : amountSeen (seen :: rest) new.account.externalId = amountSeen rest new.account.externalId := by
        simp [amountSeen, hid]
      rw [setContribution, if_neg hid, sideSum_cons, sideSum_cons, hseen, ih hside.2, Int.add_assoc]

end

/-! ## The loop -/

variable (T chart) in
/-- The line, where it counts towards nothing. -/
def unmatchedLine (line : ProfitAndLossLine) : Option UnmatchedLine :=
  match destination T chart line with
  | .unmatched reason => some ⟨line, reason⟩
  | _ => none

structure Tallied (T : CaseTables) (chart : List LedgerAccount) (lines : List ProfitAndLossLine) (s : SizingState) :
    Prop where
  sales : s.grossSalesCents.val = sumOf T chart .sales lines
  otherIncome : s.otherIncomeCents.val = sumOf T chart .otherIncome lines
  revenue : s.revenueDeductionsCents.val = sumOf T chart (.deductions .revenue) lines
  expense : s.expenseDeductionsCents.val = sumOf T chart (.deductions .expense) lines
  unmatched : s.unmatchedLines = lines.filterMap (unmatchedLine T chart)
  distinct : (s.perAccount.map (·.account.externalId)).Nodup
  named : ∀ account side, (∃ c ∈ s.perAccount, c.account = account ∧ c.side = side) ↔
    ∃ line ∈ lines, destination T chart line = .deduction account side
  amounts : ∀ c ∈ s.perAccount, c.amountCents.val = sumOf T chart (.ofAccount c.account.externalId) lines
  sides : ∀ side, sideSum side s.perAccount = sumOf T chart (.deductions side) lines

section
variable {lines : List ProfitAndLossLine} {s s' : SizingState} {line : ProfitAndLossLine}

theorem tallied_nil : Tallied T chart [] ⟨ZERO, ZERO, ZERO, ZERO, [], []⟩ where
  sales := rfl
  otherIncome := rfl
  revenue := rfl
  expense := rfl
  unmatched := rfl
  distinct := List.nodup_nil
  named := by simp
  amounts := by simp
  sides := fun _ => rfl

/-- The account and the side of a contribution are those its id names. -/
theorem Tallied.own (h : Tallied T chart lines s) {c : SizingContribution} (hc : c ∈ s.perAccount) :
    accountOf chart c.account.externalId = some c.account ∧ sideOf c.account = some c.side := by
  obtain ⟨line, -, hline⟩ := (h.named c.account c.side).1 ⟨c, hc, rfl, rfl⟩
  exact destination_deduction hline

theorem Tallied.same (h : Tallied T chart lines s) {c : SizingContribution} (hc : c ∈ s.perAccount)
    {account : LedgerAccount} {side : Side} (hline : destination T chart line = .deduction account side)
    (hid : c.account.externalId = account.externalId) : c.account = account ∧ c.side = side := by
  obtain ⟨haccount, hside⟩ := destination_deduction hline
  obtain ⟨hown, hownside⟩ := h.own hc
  rw [hid, haccount] at hown
  cases hown
  rw [hside] at hownside
  cases hownside
  exact ⟨rfl, rfl⟩

/-- What is seen of an account is the sum of its lines. -/
theorem Tallied.amountSeen_eq (h : Tallied T chart lines s) (id : Text) :
    (amountSeen s.perAccount id).val = sumOf T chart (.ofAccount id) lines := by
  by_cases hmem : ∃ c ∈ s.perAccount, c.account.externalId = id
  · obtain ⟨c, hc, rfl⟩ := hmem
    rw [amountSeen_of_mem h.distinct hc, h.amounts c hc]
  · have hnew : ∀ c ∈ s.perAccount, c.account.externalId ≠ id := fun c hc he => hmem ⟨c, hc, he⟩
    have hnone : (lines.filter fun line => (Bucket.ofAccount id).takes (destination T chart line)) = [] := by
      rw [List.filter_eq_nil_iff]
      intro line hline htakes
      cases hd : destination T chart line with
      | deduction account side =>
        rw [hd] at htakes
        obtain ⟨c, hc, hcaccount, -⟩ := (h.named account side).2 ⟨line, hline, hd⟩
        refine hnew c hc ?_
        rw [hcaccount]
        simpa [Bucket.takes] using htakes
      | grossSales => rw [hd] at htakes; cases htakes
      | otherIncome => rw [hd] at htakes; cases htakes
      | outside => rw [hd] at htakes; cases htakes
      | unmatched reason => rw [hd] at htakes; cases htakes
    rw [amountSeen_of_new hnew, sumOf, hnone]
    rfl

theorem Tallied.inRange (h : Tallied T chart lines s) (bucket : Bucket) : InRange (sumOf T chart bucket lines) := by
  cases bucket with
  | sales => exact h.sales ▸ s.grossSalesCents.inRange
  | otherIncome => exact h.otherIncome ▸ s.otherIncomeCents.inRange
  | deductions side =>
    cases side with
    | revenue => exact h.revenue ▸ s.revenueDeductionsCents.inRange
    | expense => exact h.expense ▸ s.expenseDeductionsCents.inRange
  | ofAccount id => exact h.amountSeen_eq id ▸ (amountSeen s.perAccount id).inRange

theorem unmatchedLine_concat {reason : Option UnmatchedLine} (h : unmatchedLine T chart line = reason) :
    (lines ++ [line]).filterMap (unmatchedLine T chart) = lines.filterMap (unmatchedLine T chart) ++ reason.toList := by
  rw [List.filterMap_append]
  cases reason <;> simp [h]

/-- A line that is no deduction leaves the contributions. -/
theorem named_concat (hline : ∀ account side, destination T chart line ≠ .deduction account side)
    {p : LedgerAccount → Side → Prop}
    (h : ∀ account side, p account side ↔ ∃ line ∈ lines, destination T chart line = .deduction account side)
    (account : LedgerAccount) (side : Side) :
    p account side ↔ ∃ line' ∈ lines ++ [line], destination T chart line' = .deduction account side := by
  rw [h]
  constructor
  · rintro ⟨line', hmem, hd⟩
    exact ⟨line', List.mem_append_left _ hmem, hd⟩
  · rintro ⟨line', hmem, hd⟩
    rcases List.mem_append.1 hmem with hmem | hmem
    · exact ⟨line', hmem, hd⟩
    · cases List.mem_singleton.1 hmem
      exact absurd hd (hline account side)

/-- A line that counts towards no deduction. -/
theorem tallied_plain (h : Tallied T chart lines s)
    (hline : ∀ account side, destination T chart line ≠ .deduction account side)
    {gross other : Cents} {unmatched : List UnmatchedLine}
    (hgross : gross.val = sumOf T chart .sales (lines ++ [line]))
    (hother : other.val = sumOf T chart .otherIncome (lines ++ [line]))
    (hunmatched : unmatched = (lines ++ [line]).filterMap (unmatchedLine T chart)) :
    Tallied T chart (lines ++ [line])
      { s with grossSalesCents := gross, otherIncomeCents := other, unmatchedLines := unmatched } := by
  have hnot : ∀ side, (Bucket.deductions side).takes (destination T chart line) = false := fun side => by
    cases hd : destination T chart line with
    | deduction account side' => exact absurd hd (hline account side')
    | _ => rfl
  have hnotid : ∀ id, (Bucket.ofAccount id).takes (destination T chart line) = false := fun id => by
    cases hd : destination T chart line with
    | deduction account side' => exact absurd hd (hline account side')
    | _ => rfl
  have hside : ∀ side, sumOf T chart (.deductions side) (lines ++ [line]) = sumOf T chart (.deductions side) lines :=
    fun side => by rw [sumOf_concat, hnot]; simp
  have hid : ∀ id, sumOf T chart (.ofAccount id) (lines ++ [line]) = sumOf T chart (.ofAccount id) lines :=
    fun id => by rw [sumOf_concat, hnotid]; simp
  exact ⟨hgross, hother, h.revenue.trans (hside _).symm, h.expense.trans (hside _).symm, hunmatched, h.distinct,
    named_concat hline h.named, fun c hc => (h.amounts c hc).trans (hid _).symm,
    fun side => (h.sides side).trans (hside side).symm⟩

/-- A line of an account that looks like deductions. -/
theorem tallied_deduction (h : Tallied T chart lines s) {account : LedgerAccount} {side : Side}
    (hline : destination T chart line = .deduction account side) {revenue expense total : Cents}
    (hrevenue : revenue.val = sumOf T chart (.deductions .revenue) (lines ++ [line]))
    (hexpense : expense.val = sumOf T chart (.deductions .expense) (lines ++ [line]))
    (htotal : total.val = (amountSeen s.perAccount account.externalId).val + line.amountCents.val) :
    Tallied T chart (lines ++ [line])
      { s with revenueDeductionsCents := revenue, expenseDeductionsCents := expense,
               perAccount := setContribution ⟨account, side, total⟩ s.perAccount } := by
  have hplain : ∀ {bucket : Bucket}, bucket.takes (.deduction account side) = false →
      sumOf T chart bucket (lines ++ [line]) = sumOf T chart bucket lines := fun {bucket} hb => by
    rw [sumOf_concat, hline, hb]
    simp
  have hmem : ∀ c, c ∈ setContribution ⟨account, side, total⟩ s.perAccount ↔
      c = ⟨account, side, total⟩ ∨ c ∈ s.perAccount ∧ c.account.externalId ≠ account.externalId := fun c =>
    mem_setContribution h.distinct
  have htaken : sumOf T chart (.ofAccount account.externalId) (lines ++ [line]) = total.val := by
    rw [sumOf_concat, hline, htotal, h.amountSeen_eq]
    simp [Bucket.takes]
  refine ⟨h.sales.trans (hplain rfl).symm, h.otherIncome.trans (hplain rfl).symm, hrevenue, hexpense, ?_,
    nodup_setContribution h.distinct, fun account' side' => ?_, fun c hc => ?_, fun side' => ?_⟩
  · have hnone : unmatchedLine T chart line = none := by rw [unmatchedLine, hline]
    rw [unmatchedLine_concat hnone, Option.toList_none, List.append_nil]
    exact h.unmatched
  · constructor
    · rintro ⟨c, hc, rfl, rfl⟩
      rcases (hmem c).1 hc with rfl | ⟨hc, -⟩
      · exact ⟨line, by simp, hline⟩
      · obtain ⟨line', hline', hd⟩ := (h.named c.account c.side).1 ⟨c, hc, rfl, rfl⟩
        exact ⟨line', List.mem_append_left _ hline', hd⟩
    · rintro ⟨line', hline', hd⟩
      rcases List.mem_append.1 hline' with hline' | hline'
      · obtain ⟨c, hc, hcaccount, hcside⟩ := (h.named account' side').2 ⟨line', hline', hd⟩
        by_cases hid : c.account.externalId = account.externalId
        · obtain ⟨hsame, hsameside⟩ := h.same hc hline hid
          exact ⟨⟨account, side, total⟩, (hmem _).2 (.inl rfl), hsame.symm.trans hcaccount, hsameside.symm.trans hcside⟩
        · exact ⟨c, (hmem c).2 (.inr ⟨hc, hid⟩), hcaccount, hcside⟩
      · cases List.mem_singleton.1 hline'
        cases hline.symm.trans hd
        exact ⟨_, (hmem _).2 (.inl rfl), rfl, rfl⟩
  · rcases (hmem c).1 hc with rfl | ⟨hc, hid⟩
    · exact htaken.symm
    · rw [hplain (by simpa [Bucket.takes] using Ne.symm hid)]
      exact h.amounts c hc
  · rw [sideSum_setContribution side' fun c hc hid => (h.same hc hline hid).2, h.sides, sumOf_concat, hline, htotal]
    by_cases hs : side = side'
    · simp [hs, Bucket.takes]
    · simp [hs, Bucket.takes, Ne.symm hs]

theorem tallied_step (h : Tallied T chart lines s) (hstep : sizingStep T chart s line = .ok s') :
    Tallied T chart (lines ++ [line]) s' := by
  rw [sizingStep_eq] at hstep
  have hsums : ∀ bucket : Bucket, sumOf T chart bucket (lines ++ [line]) = sumOf T chart bucket lines +
      if bucket.takes (destination T chart line) then line.amountCents.val else 0 := fun bucket => sumOf_concat _ _ _
  cases hd : destination T chart line with
  | grossSales =>
    rw [hd] at hstep
    obtain ⟨c, hc, rfl⟩ := map_ok.1 hstep
    refine tallied_plain h (by simp [hd]) ?_ ?_ ?_
    · rw [hsums, hd, add_ok.1 hc, h.sales]
      rfl
    · rw [hsums, hd, h.otherIncome]
      exact (Int.add_zero _).symm
    · rw [unmatchedLine_concat (by rw [unmatchedLine, hd]), Option.toList_none, List.append_nil]
      exact h.unmatched
  | otherIncome =>
    rw [hd] at hstep
    obtain ⟨c, hc, rfl⟩ := map_ok.1 hstep
    refine tallied_plain h (by simp [hd]) ?_ ?_ ?_
    · rw [hsums, hd, h.sales]
      exact (Int.add_zero _).symm
    · rw [hsums, hd, add_ok.1 hc, h.otherIncome]
      rfl
    · rw [unmatchedLine_concat (by rw [unmatchedLine, hd]), Option.toList_none, List.append_nil]
      exact h.unmatched
  | outside =>
    rw [hd] at hstep
    cases hstep
    refine tallied_plain h (by simp [hd]) ?_ ?_ ?_
    · rw [hsums, hd, h.sales]
      exact (Int.add_zero _).symm
    · rw [hsums, hd, h.otherIncome]
      exact (Int.add_zero _).symm
    · rw [unmatchedLine_concat (by rw [unmatchedLine, hd]), Option.toList_none, List.append_nil]
      exact h.unmatched
  | unmatched reason =>
    rw [hd] at hstep
    cases hstep
    refine tallied_plain h (by simp [hd]) ?_ ?_ ?_
    · rw [hsums, hd, h.sales]
      exact (Int.add_zero _).symm
    · rw [hsums, hd, h.otherIncome]
      exact (Int.add_zero _).symm
    · rw [unmatchedLine_concat (by rw [unmatchedLine, hd]), h.unmatched]
      rfl
  | deduction account side =>
    rw [hd] at hstep
    change deductionStep s account side line.amountCents = .ok s' at hstep
    unfold deductionStep at hstep
    obtain ⟨mid, hmid, hstep⟩ := bind_ok.1 hstep
    obtain ⟨total, htotal, hstep⟩ := bind_ok.1 hstep
    cases hstep
    cases side with
    | revenue =>
      obtain ⟨c, hc, rfl⟩ := map_ok.1 hmid
      refine tallied_deduction h hd ?_ ?_ (add_ok.1 htotal)
      · rw [hsums, hd, add_ok.1 hc, h.revenue]
        rfl
      · rw [hsums, hd, h.expense]
        exact (Int.add_zero _).symm
    | expense =>
      obtain ⟨c, hc, rfl⟩ := map_ok.1 hmid
      refine tallied_deduction h hd ?_ ?_ (add_ok.1 htotal)
      · rw [hsums, hd, h.revenue]
        exact (Int.add_zero _).symm
      · rw [hsums, hd, add_ok.1 hc, h.expense]
        rfl

/-- A turn of the loop throws where a sum leaves the safe range, and only there. -/
theorem sizingStep_returns (h : Tallied T chart lines s) :
    (∃ s', sizingStep T chart s line = .ok s') ↔ ∀ bucket, InRange (sumOf T chart bucket (lines ++ [line])) := by
  constructor
  · rintro ⟨s', hstep⟩ bucket
    exact (tallied_step h hstep).inRange bucket
  · intro hsafe
    have hadd : ∀ {c : Cents} {bucket : Bucket}, c.val = sumOf T chart bucket lines →
        bucket.takes (destination T chart line) = true → ∃ c', add c line.amountCents = .ok c' := by
      intro c bucket hc htakes
      have hr := hsafe bucket
      rw [sumOf_concat, htakes, if_pos rfl, ← hc] at hr
      exact add_returns hr
    rw [sizingStep_eq]
    cases hd : destination T chart line with
    | grossSales =>
      obtain ⟨c, hc⟩ := hadd h.sales (by rw [hd]; rfl)
      exact ⟨_, map_ok.2 ⟨c, hc, rfl⟩⟩
    | otherIncome =>
      obtain ⟨c, hc⟩ := hadd h.otherIncome (by rw [hd]; rfl)
      exact ⟨_, map_ok.2 ⟨c, hc, rfl⟩⟩
    | outside => exact ⟨_, rfl⟩
    | unmatched reason => exact ⟨_, rfl⟩
    | deduction account side =>
      obtain ⟨total, htotal⟩ := hadd (h.amountSeen_eq account.externalId) (by rw [hd]; simp [Bucket.takes])
      cases side with
      | revenue =>
        obtain ⟨c, hc⟩ := hadd h.revenue (by rw [hd]; rfl)
        exact ⟨_, bind_ok.2 ⟨_, map_ok.2 ⟨c, hc, rfl⟩, bind_ok.2 ⟨total, htotal, rfl⟩⟩⟩
      | expense =>
        obtain ⟨c, hc⟩ := hadd h.expense (by rw [hd]; rfl)
        exact ⟨_, bind_ok.2 ⟨_, map_ok.2 ⟨c, hc, rfl⟩, bind_ok.2 ⟨total, htotal, rfl⟩⟩⟩

end

end Recouple.Sizing
