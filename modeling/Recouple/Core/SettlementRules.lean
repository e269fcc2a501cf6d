import Mathlib
import Recouple.Core.SettlementLines
import Recouple.Lib.SortByKey

/-!
# The rules of settlement lines

`Rules` states what `validateSettlementLines` asks of a proposal. Each check of the source is matched with
its rule here (`lineProblems_nil`, `sumProblems_nil`, `receivableProblems_nil`); `SettlementVerdict` puts
them together.
-/

namespace Recouple.Journal
open Js KeyedFold

/-! ## Sums -/

theorem foldlM_addCents : ∀ {values : List Cents} {total sum : Cents}, 0 ≤ total.val →
    (∀ v ∈ values, 0 ≤ v.val) →
    (values.foldlM addCents total = .ok sum ↔ sum.val = total.val + (values.map Cents.val).sum)
  | [], total, sum, _, _ => by simp [Cents.ext_iff, eq_comm, pure, Except.pure]
  | v :: values, total, sum, h0, hv => by
    rw [List.forall_mem_cons] at hv
    rw [List.foldlM_cons, List.map_cons, List.sum_cons]
    have hrest : 0 ≤ (values.map Cents.val).sum := List.sum_nonneg (by simpa using hv.2)
    have hu := sum.upper
    have hl := v.lower
    constructor
    · intro h
      obtain ⟨next, hnext, h⟩ := bind_ok.1 h
      have hn := addCents_ok.1 hnext
      have := (foldlM_addCents (by omega) hv.2).1 h
      omega
    · intro h
      obtain ⟨next, hnext⟩ := addCents_returns.2 (show InRange (total.val + v.val) by
        unfold InRange
        omega)
      have hn := addCents_ok.1 hnext
      exact bind_ok.2 ⟨next, hnext, (foldlM_addCents (by omega) hv.2).2 (by omega)⟩

/-- Amounts that are not negative add up exactly when the whole sum is safe. -/
theorem sumCents_ok {values : List Cents} {sum : Cents} (hv : ∀ v ∈ values, 0 ≤ v.val) :
    sumCents values = .ok sum ↔ sum.val = (values.map Cents.val).sum := by
  have hz : ZERO.val = 0 := rfl
  rw [sumCents, foldlM_addCents (by decide) hv, hz, Int.zero_add]

/-- The debits of some lines. -/
def debitSum (lines : List (Int × Int)) : Int := (lines.map Prod.fst).sum

/-- The credits of some lines. -/
def creditSum (lines : List (Int × Int)) : Int := (lines.map Prod.snd).sum

/-- One side is positive and the other is zero. -/
def OneSided (side : Int × Int) : Prop := 0 < side.1 ∧ side.2 = 0 ∨ side.1 = 0 ∧ 0 < side.2

theorem OneSided.nonneg {side : Int × Int} (h : OneSided side) : 0 ≤ side.1 ∧ 0 ≤ side.2 := by
  unfold OneSided at h
  omega

/-- One column of a total: every amount read as cents, then summed. -/
theorem column_ok {amounts : List Int} {sum : Cents} (hn : ∀ v ∈ amounts, 0 ≤ v) :
    (∃ values, amounts.mapM cents = .ok values ∧ sumCents values = .ok sum) ↔ sum.val = amounts.sum := by
  constructor
  · rintro ⟨values, hv, hs⟩
    have hvals : values.map Cents.val = amounts := by
      have h := mapM_forall₂ hv
      clear hs hv hn
      induction h with
      | nil => rfl
      | cons hc _ ih => rw [List.map_cons, cents_ok.1 hc, ih]
    have hnonneg : ∀ v ∈ values, 0 ≤ v.val := fun v hm => hn _ (hvals ▸ List.mem_map_of_mem hm)
    rw [(sumCents_ok hnonneg).1 hs, hvals]
  · intro hs
    have hle : ∀ v ∈ amounts, InRange v := fun v hv => by
      have h1 := List.single_le_sum hn v hv
      have h2 := hn v hv
      have h3 := sum.upper
      unfold InRange maxSafe at *
      omega
    let read : Int → Cents := fun v => if h : InRange v then ⟨v, h.1, h.2⟩ else ZERO
    have hread : ∀ v ∈ amounts, (read v).val = v := fun v hv => by simp [read, hle v hv]
    refine ⟨amounts.map read, mapM_ok fun v hv => cents_ok.2 (hread v hv), (sumCents_ok ?_).2 ?_⟩
    · intro c hc
      obtain ⟨v, hv, rfl⟩ := List.mem_map.1 hc
      rw [hread v hv]
      exact hn v hv
    · rw [hs, List.map_map]
      exact congrArg List.sum ((List.map_congr_left hread).trans (List.map_id' _)).symm

/-- Amounts that are not negative have totals exactly when the sums are safe. -/
theorem settlementTotals_ok {lines : List (Int × Int)} (hn : ∀ l ∈ lines, 0 ≤ l.1 ∧ 0 ≤ l.2)
    {d c : Cents} {b : Bool} :
    settlementTotals lines = .ok (d, c, b) ↔
      d.val = debitSum lines ∧ c.val = creditSum lines ∧ b = decide (d = c) := by
  have hd : ∀ v ∈ lines.map Prod.fst, (0 : Int) ≤ v := fun v hv => by
    obtain ⟨l, hl, rfl⟩ := List.mem_map.1 hv
    exact (hn l hl).1
  have hc : ∀ v ∈ lines.map Prod.snd, (0 : Int) ≤ v := fun v hv => by
    obtain ⟨l, hl, rfl⟩ := List.mem_map.1 hv
    exact (hn l hl).2
  have hmap : ∀ f : Int × Int → Int, lines.mapM (fun l => cents (f l)) = (lines.map f).mapM cents := fun f => by
    rw [List.mapM_map]
    rfl
  rw [debitSum, creditSum, ← column_ok hd, ← column_ok hc, settlementTotals, hmap, hmap]
  constructor
  · intro h
    obtain ⟨ds, hds, h⟩ := bind_ok.1 h
    obtain ⟨d', hd', h⟩ := bind_ok.1 h
    obtain ⟨cs, hcs, h⟩ := bind_ok.1 h
    obtain ⟨c', hc', h⟩ := bind_ok.1 h
    cases h
    exact ⟨⟨ds, hds, hd'⟩, ⟨cs, hcs, hc'⟩, rfl⟩
  · rintro ⟨⟨ds, hds, hd'⟩, ⟨cs, hcs, hc'⟩, rfl⟩
    exact bind_ok.2 ⟨ds, hds, bind_ok.2 ⟨d, hd', bind_ok.2 ⟨cs, hcs, bind_ok.2 ⟨c, hc', rfl⟩⟩⟩⟩

/-- Both totals are safe integers. -/
def TotalsSafe (lines : List (Int × Int)) : Prop := InRange (debitSum lines) ∧ InRange (creditSum lines)

theorem settlementTotals_returns {lines : List (Int × Int)} (hn : ∀ l ∈ lines, 0 ≤ l.1 ∧ 0 ≤ l.2) :
    (∃ t, settlementTotals lines = .ok t) ↔ TotalsSafe lines := by
  constructor
  · rintro ⟨⟨d, c, b⟩, h⟩
    obtain ⟨hd, hc, -⟩ := (settlementTotals_ok hn).1 h
    exact ⟨hd ▸ d.inRange, hc ▸ c.inRange⟩
  · rintro ⟨hd, hc⟩
    exact ⟨(⟨_, hd.1, hd.2⟩, ⟨_, hc.1, hc.2⟩, _), (settlementTotals_ok hn).2 ⟨rfl, rfl, rfl⟩⟩

/-! ## The rules of one line -/

/-- The two amounts are safe integers on one side. -/
def SidesRead (line : SettlementLineInput) : Prop :=
  ∃ d c : Cents, line.debitCents = .integer d.val ∧ line.creditCents = .integer c.val ∧ OneSided (d.val, c.val)

/-- Absent, blank, or a trimmed text of at most 500 units without a control character. -/
def MemoFits (memo : Option Text) : Prop :=
  ∀ m, memo = some m → trim m = [] ∨ trim m ≠ [] ∧ (trim m).any isControl = false ∧
    utf16Length (trim m) ≤ SETTLEMENT_MEMO_MAX_LENGTH

/-- The account is in the chart and active, its type is not refused, and it has a receivable's type
exactly where it is the policy's receivable account. -/
def Permitted (chart : List SettlementChartAccount) (policy : SettlementAccountPolicy) (id : Text) : Prop :=
  id ≠ [] ∧ ∃ account, accountOf chart id = some account ∧ account.active = true ∧
    account.accountType ∉ policy.refusedAccountTypes ∧
    (account.accountType ∈ policy.receivableAccountTypes ↔ id = policy.receivableAccountId)

theorem amountProblem_integer {d c : Int} : amountProblem (.integer d) (.integer c) = none ↔
    InRange d ∧ InRange c ∧ OneSided (d, c) := by
  change _ ↔ InRange d ∧ InRange c ∧ (0 < d ∧ c = 0 ∨ d = 0 ∧ 0 < c)
  unfold amountProblem
  simp only [isSafeInteger, JsNumber.value]
  by_cases hd : InRange d <;> by_cases hc : InRange c <;> simp only [hd, hc] <;> grind

theorem amountProblem_none {line : SettlementLineInput} :
    amountProblem line.debitCents line.creditCents = none ↔ SidesRead line := by
  unfold SidesRead
  cases hd : line.debitCents with
  | other => simp [amountProblem, isSafeInteger]
  | integer d =>
    cases hc : line.creditCents with
    | other => simp [amountProblem, isSafeInteger]
    | integer c =>
      rw [amountProblem_integer]
      simp only [JsNumber.integer.injEq]
      constructor
      · rintro ⟨hd, hc, h⟩
        exact ⟨⟨d, hd.1, hd.2⟩, ⟨c, hc.1, hc.2⟩, rfl, rfl, h⟩
      · rintro ⟨d', c', rfl, rfl, h⟩
        exact ⟨d'.inRange, c'.inRange, h⟩

theorem memoProblem_none {memo : Option Text} : memoProblem memo = none ↔ MemoFits memo := by
  unfold memoProblem normaliseSettlementMemo MemoFits
  cases memo with
  | none => simp
  | some m =>
    simp only [Option.some.injEq, forall_eq']
    by_cases h1 : trim m = []
    · simp [h1]
    · by_cases h2 : (trim m).any isControl = true
      · simp [h1, h2]
      · by_cases h3 : SETTLEMENT_MEMO_MAX_LENGTH < utf16Length (trim m)
        · simp [h1, h2, h3, Nat.not_le.2 h3]
        · simp [h1, h2, h3, Nat.not_lt.1 h3]

theorem accountProblem_none {chart : List SettlementChartAccount} {policy : SettlementAccountPolicy} {id : Text} :
    accountProblem chart policy id = none ↔ Permitted chart policy id := by
  unfold accountProblem Permitted
  by_cases h0 : id = []
  · simp [h0]
  · rw [if_neg h0]
    cases ha : accountOf chart id with
    | none => simp
    | some account =>
      cases hact : account.active with
      | false => simp [h0, hact]
      | true =>
        simp only [hact, Bool.not_true, Bool.false_eq_true, if_false, Option.some.injEq, exists_eq_left', ne_eq,
          h0, not_false_eq_true, true_and, ite_eq_right_iff, reduceCtorEq, imp_false, not_or, not_and,
          Decidable.not_not]
        tauto

/-- The rules of one line. -/
structure LineRules (chart : List SettlementChartAccount) (policy : SettlementAccountPolicy)
    (line : SettlementLineInput) : Prop where
  sides : SidesRead line
  memo : MemoFits line.memo
  account : Permitted chart policy (trim line.accountExternalId)

theorem lineProblems_nil {chart : List SettlementChartAccount} {policy : SettlementAccountPolicy}
    {line : SettlementLineInput} : lineProblems chart policy line = [] ↔ LineRules chart policy line := by
  have htl : ∀ o : Option SettlementLineProblemCode, o.toList = [] ↔ o = none := fun o => by cases o <;> simp
  rw [lineProblems, List.append_eq_nil_iff, List.append_eq_nil_iff, htl, htl, htl, amountProblem_none,
    memoProblem_none, accountProblem_none, and_assoc]
  exact ⟨fun h => ⟨h.1, h.2.1, h.2.2⟩, fun h => ⟨h.sides, h.memo, h.account⟩⟩

/-! ## The receivable lines -/

/-- The sides of the lines on the receivable account. -/
def receivableSides (policy : SettlementAccountPolicy) (lines : List (Text × Int × Int)) : List (Int × Int) :=
  (lines.filter fun line => trim line.1 = policy.receivableAccountId).map Prod.snd

def SettlementLineInput.entry (line : SettlementLineInput) : Text × Int × Int :=
  (line.accountExternalId, line.sides)

def SettlementLine.entry (line : SettlementLine) : Text × Int × Int := (line.accountExternalId, line.sides)

theorem decimalInt_inj {m n : Int} (h : decimalInt m = decimalInt n) : m = n := by
  have hnil : NoDigitNext [] := fun c hc => by simp at hc
  exact (decimalInt_append_inj (r := []) (s := []) hnil hnil (by simpa using h)).1

theorem sideKey_injOn : Set.InjOn sideKey {side | OneSided side} := by
  rintro ⟨d, c⟩ h ⟨d', c'⟩ h' he
  change 0 < d ∧ c = 0 ∨ d = 0 ∧ 0 < c at h
  change 0 < d' ∧ c' = 0 ∨ d' = 0 ∧ 0 < c' at h'
  unfold sideKey at he
  dsimp only at he
  split_ifs at he with h1 h2 h2
  · have := decimalInt_inj (List.cons.inj he).2
    rw [Prod.mk.injEq]
    omega
  · exact absurd (List.cons.inj he).1 (by decide)
  · exact absurd (List.cons.inj he).1 (by decide)
  · have := decimalInt_inj (List.cons.inj he).2
    rw [Prod.mk.injEq]
    omega

/-- Keys that tell the members apart have one multiset exactly when the members do. -/
theorem perm_map_iff {α β : Type*} [Nonempty α] {f : α → β} {S : Set α} (hf : Set.InjOn f S) {l l' : List α}
    (hl : ∀ a ∈ l, a ∈ S) (hl' : ∀ a ∈ l', a ∈ S) : (l.map f).Perm (l'.map f) ↔ l.Perm l' := by
  refine ⟨fun h => ?_, fun h => h.map f⟩
  have hback : ∀ m : List α, (∀ a ∈ m, a ∈ S) → (m.map f).map (Function.invFunOn f S) = m := fun m hm => by
    rw [List.map_map]
    exact (List.map_congr_left fun a ha => hf.leftInvOn_invFunOn (hm a ha)).trans (List.map_id' _)
  have := h.map (Function.invFunOn f S)
  rwa [hback l hl, hback l' hl'] at this

/-- The sorted keys agree exactly when the sides are the same multiset. -/
theorem receivable_eq_iff {policy : SettlementAccountPolicy} {lines lines' : List (Text × Int × Int)}
    (h : ∀ l ∈ lines, OneSided l.2) (h' : ∀ l ∈ lines', OneSided l.2) :
    receivable policy lines = receivable policy lines' ↔
      (receivableSides policy lines).Perm (receivableSides policy lines') := by
  have hsides : ∀ {ls : List (Text × Int × Int)}, (∀ l ∈ ls, OneSided l.2) →
      ∀ side ∈ receivableSides policy ls, side ∈ {side | OneSided side} := fun hls side hs => by
    obtain ⟨l, hl, rfl⟩ := List.mem_map.1 hs
    exact hls l (List.mem_filter.1 hl).1
  have hkeys : ∀ ls : List (Text × Int × Int),
      receivable policy ls = ((receivableSides policy ls).map sideKey).insertionSort textLe := fun ls => by
    rw [receivable, receivableSides, List.map_map]
    rfl
  rw [hkeys, hkeys, ← perm_map_iff sideKey_injOn (hsides h) (hsides h')]
  constructor
  · intro he
    exact (List.perm_insertionSort textLe _).symm.trans (he ▸ List.perm_insertionSort textLe _)
  · intro hp
    exact SortByKey.insertionSort_congr_of_apart (r := textLe) (fun _ _ => Iff.rfl) hp
      fun _ _ _ _ he => codeUnits_injective he

/-! ## The rules of a proposal -/

/-- What a proposal has to keep. -/
structure Rules (input : List SettlementLineInput) (chart : List SettlementChartAccount)
    (computed : List SettlementLine) (policy : SettlementAccountPolicy) : Prop where
  few : SETTLEMENT_MIN_LINES ≤ input.length
  many : input.length ≤ SETTLEMENT_MAX_LINES
  lines : ∀ line ∈ input, LineRules chart policy line
  balanced : debitSum (input.map (·.sides)) = creditSum (input.map (·.sides))
  within : debitSum (input.map (·.sides)) ≤ debitSum (computed.map (·.sides))
  receivable : (receivableSides policy (input.map (·.entry))).Perm (receivableSides policy (computed.map (·.entry)))

/-- Lines as `settlementLinesFrom` makes them: each on one side. -/
def Computed (computed : List SettlementLine) : Prop := ∀ line ∈ computed, OneSided line.sides

section
variable {input : List SettlementLineInput} {chart : List SettlementChartAccount}
  {computed : List SettlementLine} {policy : SettlementAccountPolicy}

theorem LineRules.oneSided {line : SettlementLineInput} (h : LineRules chart policy line) :
    OneSided line.sides := by
  obtain ⟨d, c, hd, hc, h⟩ := h.sides
  simpa [SettlementLineInput.sides, hd, hc, JsNumber.value] using h

theorem usableLines_eq (h : ∀ line ∈ input, OneSided line.sides) : usableLines input = input := by
  refine List.filter_eq_self.2 fun line hl => ?_
  have := h line hl
  unfold OneSided at this
  rcases this with ⟨h1, h2⟩ | ⟨h1, h2⟩ <;> simp [h1, h2]

theorem sides_nonneg {α : Type} {f : α → Int × Int} {l : List α} (h : ∀ a ∈ l, OneSided (f a)) :
    ∀ side ∈ l.map f, 0 ≤ side.1 ∧ 0 ≤ side.2 := fun side hs => by
  obtain ⟨a, ha, rfl⟩ := List.mem_map.1 hs
  exact (h a ha).nonneg

theorem debitSum_nonneg {sides : List (Int × Int)} (h : ∀ side ∈ sides, 0 ≤ side.1 ∧ 0 ≤ side.2) :
    0 ≤ debitSum sides :=
  List.sum_nonneg fun v hv => by
    obtain ⟨side, hs, rfl⟩ := List.mem_map.1 hv
    exact (h side hs).1

/-- With safe computed totals, the sums are found right exactly when they balance and move no more. -/
theorem sumProblems_nil (hc : Computed computed) (hsafe : TotalsSafe (computed.map (·.sides)))
    (hi : ∀ line ∈ input, OneSided line.sides) :
    sumProblems computed input = .ok [] ↔
      debitSum (input.map (·.sides)) = creditSum (input.map (·.sides)) ∧
        debitSum (input.map (·.sides)) ≤ debitSum (computed.map (·.sides)) := by
  have hn := sides_nonneg hi
  obtain ⟨⟨d', c', b'⟩, htotals⟩ := (settlementTotals_returns (sides_nonneg hc)).2 hsafe
  obtain ⟨hd', -, -⟩ := (settlementTotals_ok (sides_nonneg hc)).1 htotals
  unfold sumProblems
  cases hsum : settlementTotals (input.map (·.sides)) with
  | error e =>
    refine ⟨fun h => (by cases h), fun ⟨hb, hw⟩ => ?_⟩
    -- balanced sums under the computed debits would have been safe
    have h0 : 0 ≤ debitSum (input.map (·.sides)) := debitSum_nonneg hn
    have hr := hsafe.1
    have : TotalsSafe (input.map (·.sides)) := by
      unfold TotalsSafe InRange at *
      omega
    obtain ⟨t, ht⟩ := (settlementTotals_returns hn).2 this
    rw [hsum] at ht
    cases ht
  | ok t =>
    obtain ⟨d, c, b⟩ := t
    obtain ⟨hd, hcr, rfl⟩ := (settlementTotals_ok hn).1 hsum
    dsimp only
    rw [htotals, ← hd, ← hcr, ← hd']
    have hdc : d = c ↔ d.val = c.val := Cents.ext_iff
    constructor
    · intro h
      have h : (if !decide (d = c) then [SettlementLineProblemCode.unbalanced] else []) ++
          (if d'.val < d.val then [.moves_more_than_computed] else []) = [] := Except.ok.inj h
      rw [List.append_eq_nil_iff] at h
      obtain ⟨h1, h2⟩ := h
      refine ⟨?_, ?_⟩
      · by_contra hne
        simp [hdc, hne] at h1
      · by_contra hlt
        simp [not_le.1 hlt] at h2
    · rintro ⟨h1, h2⟩
      simp [hdc.2 h1, not_lt.2 (hdc.2 h1 ▸ h2), bind, Except.bind]

theorem receivableProblems_nil (hc : Computed computed) (hi : ∀ line ∈ input, OneSided line.sides) :
    receivableProblems policy computed input = [] ↔
      (receivableSides policy (input.map (·.entry))).Perm (receivableSides policy (computed.map (·.entry))) := by
  have h1 : ∀ l ∈ input.map (·.entry), OneSided l.2 := fun l hl => by
    obtain ⟨line, hm, rfl⟩ := List.mem_map.1 hl
    exact hi line hm
  have h2 : ∀ l ∈ computed.map (·.entry), OneSided l.2 := fun l hl => by
    obtain ⟨line, hm, rfl⟩ := List.mem_map.1 hl
    exact hc line hm
  rw [← receivable_eq_iff h1 h2, receivableProblems]
  change (if receivable policy (input.map (·.entry)) ≠ receivable policy (computed.map (·.entry)) then
    [SettlementLineProblemCode.receivable_changed] else []) = [] ↔ _
  by_cases h : receivable policy (input.map (·.entry)) = receivable policy (computed.map (·.entry)) <;> simp [h]

theorem sumProblems_returns (hc : Computed computed) (hsafe : TotalsSafe (computed.map (·.sides)))
    (usable : List SettlementLineInput) : ∃ codes, sumProblems computed usable = .ok codes := by
  unfold sumProblems
  split
  · exact ⟨_, rfl⟩
  · obtain ⟨t, ht⟩ := (settlementTotals_returns (sides_nonneg hc)).2 hsafe
    rw [ht]
    exact ⟨_, rfl⟩

/-- With safe computed totals the validation answers. -/
theorem validate_returns (hc : Computed computed) (hsafe : TotalsSafe (computed.map (·.sides))) :
    ∃ verdict, validateSettlementLines input chart computed policy = .ok verdict := by
  obtain ⟨sums, hs⟩ := sumProblems_returns hc hsafe (usableLines input)
  have htotal : totalProblems policy computed input =
      .ok (sums ++ receivableProblems policy computed (usableLines input)) := bind_ok.2 ⟨sums, hs, rfl⟩
  unfold validateSettlementLines
  dsimp only
  split
  · exact ⟨_, bind_ok.2 ⟨_, htotal, rfl⟩⟩
  · exact ⟨_, rfl⟩

end

end Recouple.Journal
