import Recouple.Qbo.SplitSpec

/-!
# The code splits as the specification says

`readPaymentApplications` returns what `Split` says, and refuses a row that has a split only for more cash
than the payment carried or for a running total past the safe integers (`readPaymentApplications_ok`,
`readPaymentApplications_error`).
-/

namespace Recouple.Qbo
open Js KeyedFold

/-! ## Sums -/

/-- Every running total of these amounts is a safe integer. -/
def Running (amounts : List Cents) : Prop := ∀ k, InRange ((amounts.take k).map (·.val)).sum

theorem orMoney_ok {α : Type} {r : Except MoneyError α} {a : α} : orMoney r = .ok a ↔ r = .ok a := mapError_ok

/-- Amounts that are not negative run no higher than their total. -/
theorem running_of_nonneg {amounts : List Cents} (h : ∀ a ∈ amounts, 0 ≤ a.val) :
    Running amounts ↔ (amounts.map (·.val)).sum ≤ maxSafe := by
  constructor
  · intro hr
    have := (hr amounts.length).2
    rwa [List.take_length] at this
  · intro hsum k
    have hsplit : ((amounts.take k).map (·.val)).sum + ((amounts.drop k).map (·.val)).sum =
        (amounts.map (·.val)).sum := by
      rw [← List.sum_append, ← List.map_append, List.take_append_drop]
    have hfront : 0 ≤ ((amounts.take k).map (·.val)).sum := List.sum_nonneg fun v hv => by
      obtain ⟨a, ha, rfl⟩ := List.mem_map.1 hv
      exact h a (List.mem_of_mem_take ha)
    have hback : 0 ≤ ((amounts.drop k).map (·.val)).sum := List.sum_nonneg fun v hv => by
      obtain ⟨a, ha, rfl⟩ := List.mem_map.1 hv
      exact h a (List.mem_of_mem_drop ha)
    unfold InRange maxSafe at *
    omega

theorem addCents_error {a b : Cents} {e : MoneyError} (h : addCents a b = .error e) : ∃ v, e = .outOfRange v := by
  unfold addCents cents at h
  split_ifs at h
  cases h
  exact ⟨_, rfl⟩

theorem sumCents_error {amounts : List Cents} {e : MoneyError} (h : sumCents amounts = .error e) :
    ∃ v, e = .outOfRange v := by
  unfold sumCents at h
  generalize ZERO = acc at h
  induction amounts generalizing acc with
  | nil => cases h
  | cons a amounts ih =>
    rw [List.foldlM_cons] at h
    cases hadd : addCents acc a with
    | error e' =>
      rw [hadd] at h
      cases h
      exact addCents_error hadd
    | ok sum =>
      rw [hadd] at h
      exact ih sum h

/-- A sum is refused for a running total, and for nothing else. -/
theorem orMoney_sumCents_error {amounts : List Cents} {e : Thrown} (h : orMoney (sumCents amounts) = .error e) :
    ¬ Running amounts ∧ ∃ v, e = .money (.outOfRange v) := by
  unfold orMoney at h
  cases hs : sumCents amounts with
  | ok c =>
    rw [hs] at h
    cases h
  | error m =>
    rw [hs] at h
    cases h
    obtain ⟨v, rfl⟩ := sumCents_error hs
    refine ⟨fun hr => ?_, v, rfl⟩
    obtain ⟨c, hc⟩ := sumCents_returns.2 hr
    rw [hs] at hc
    cases hc

/-! ## The loop over the credit lines -/

section
variable {invoiceLines : List InvoiceLine} {credits₀ : Credits}

/-- After the credit lines `done`: each was for an amount no other had, what is claimed are the invoice lines
of these amounts, and what is recorded is what they settled. -/
structure Claiming (invoiceLines : List InvoiceLine) (credits₀ : Credits) (done : List CreditLine)
    (state : List Nat × Credits) : Prop where
  forced : Forced (invoiceLines.map (·.asCash)) (done.map (·.asCredit))
  claimed : ∀ e ∈ invoiceLines.zipIdx, e.2 ∈ state.1 ↔ e.1.line.amountCents ∈ done.map (·.line.amountCents)
  recorded : state.2 = record credits₀ (logOn (settledBy (invoiceLines.map (·.asCash))) (done.map (·.asCredit)))

theorem amounts_asCash : (invoiceLines.map (·.asCash)).map (·.amountCents) =
    invoiceLines.map (·.line.amountCents) := by
  rw [List.map_map]
  rfl

theorem amounts_asCredit (creditLines : List CreditLine) : (creditLines.map (·.asCredit)).map (·.2) =
    creditLines.map (·.line.amountCents) := by
  rw [List.map_map]
  rfl

/-- An index stands for one line. -/
theorem eq_of_index {e e' : InvoiceLine × Nat} (h : e ∈ invoiceLines.zipIdx) (h' : e' ∈ invoiceLines.zipIdx)
    (hi : e.2 = e'.2) : e = e' := by
  obtain ⟨x, i⟩ := e
  obtain ⟨y, j⟩ := e'
  rw [List.mk_mem_zipIdx_iff_getElem?] at h h'
  obtain rfl : i = j := hi
  rw [h] at h'
  rw [Option.some.inj h']

variable {done : List CreditLine} {state state' : List Nat × Credits} {c : CreditLine}

/-- The unclaimed lines of an amount: none once a credit had it, else all that have it. -/
theorem Claiming.matchesOf_eq (h : Claiming invoiceLines credits₀ done state) (amount : Cents) :
    matchesOf invoiceLines state.1 amount = if amount ∈ done.map (·.line.amountCents) then [] else
      invoiceLines.zipIdx.filter fun e => e.1.line.amountCents = amount := by
  unfold matchesOf
  split_ifs with hdone
  · rw [List.filter_eq_nil_iff]
    intro e he
    simp only [decide_eq_true_eq, not_and]
    exact fun hclaim ha => hclaim ((h.claimed e he).2 (ha ▸ hdone))
  · refine List.filter_congr fun e he => ?_
    simp only [decide_eq_decide, and_iff_right_iff_imp]
    exact fun ha hclaim => hdone (ha ▸ (h.claimed e he).1 hclaim)

theorem length_ofAmount (amount : Cents) :
    (invoiceLines.zipIdx.filter fun e => e.1.line.amountCents = amount).length =
      ((invoiceLines.map (·.asCash)).map (·.amountCents)).count amount := by
  have hfst : (invoiceLines.zipIdx.filter fun e => e.1.line.amountCents = amount).map Prod.fst =
      invoiceLines.filter fun l => l.line.amountCents = amount := by
    conv_rhs => rw [← List.zipIdx_map_fst 0 invoiceLines]
    rw [List.filter_map]
    rfl
  rw [← List.length_map (f := Prod.fst), hfst, amounts_asCash, List.count_eq_length_filter, List.filter_map,
    List.length_map]
  congr 1

theorem settledBy_of_filter {e : InvoiceLine × Nat} {amount : Cents} (memo : Option Text)
    (h : invoiceLines.zipIdx.filter (fun e => e.1.line.amountCents = amount) = [e]) :
    settledBy (invoiceLines.map (·.asCash)) (memo, amount) = e.1.asCash := by
  have hone : ((invoiceLines.map (·.asCash)).map (·.amountCents)).count amount = 1 := by
    rw [← length_ofAmount, h]
    rfl
  have he : e ∈ invoiceLines.zipIdx.filter fun e => e.1.line.amountCents = amount := by
    rw [h]
    exact List.mem_singleton.2 rfl
  obtain ⟨hmem, ha⟩ := List.mem_filter.1 he
  obtain ⟨hs, hsa⟩ := settledBy_mem (c := (memo, amount)) hone
  refine eq_of_count_eq_one hone hs (List.mem_map_of_mem ?_) hsa (by simpa [InvoiceLine.asCash] using ha)
  have hfst := List.mem_map_of_mem (f := Prod.fst) hmem
  rwa [List.zipIdx_map_fst] at hfst

theorem Claiming.step (h : Claiming invoiceLines credits₀ done state)
    (hc : claimLine invoiceLines state c = .ok state') : Claiming invoiceLines credits₀ (done ++ [c]) state' := by
  have hmatch := h.matchesOf_eq c.line.amountCents
  unfold claimLine at hc
  split at hc
  · rename_i candidate index hfound
    cases hc
    rw [hfound] at hmatch
    split_ifs at hmatch with hdone
    have hone : ((invoiceLines.map (·.asCash)).map (·.amountCents)).count c.line.amountCents = 1 := by
      rw [← length_ofAmount, ← hmatch]
      rfl
    have hmem : ∀ e : InvoiceLine × Nat, e ∈ invoiceLines.zipIdx ∧ e.1.line.amountCents = c.line.amountCents ↔
        e = (candidate, index) := fun e => by
      rw [← List.mem_singleton (b := (candidate, index)), hmatch, List.mem_filter, decide_eq_true_eq]
    have hthis := (hmem (candidate, index)).2 rfl
    refine ⟨?_, fun e he => ?_, ?_⟩
    · intro x hx
      rw [List.map_append, List.mem_append] at hx
      rw [amounts_asCredit, List.map_append, List.count_append]
      rcases hx with hx | hx
      · obtain ⟨h1, h2⟩ := h.forced x hx
        rw [amounts_asCredit] at h2
        have hxdone : x.2 ∈ done.map (·.line.amountCents) := List.count_pos_iff.1 (by omega)
        have hne : c.line.amountCents ≠ x.2 := fun e => hdone (e ▸ hxdone)
        exact ⟨h1, by simp [h2, hne]⟩
      · obtain rfl : x = c.asCredit := by simpa using hx
        refine ⟨hone, ?_⟩
        rw [List.count_eq_zero_of_not_mem (show c.asCredit.2 ∉ _ from hdone)]
        simp [CreditLine.asCredit]
    · rw [List.mem_cons, h.claimed e he, List.map_append, List.mem_append, or_comm]
      refine or_congr_right ?_
      rw [List.map_singleton, List.mem_singleton]
      constructor
      · intro hi
        exact ((hmem e).2 (eq_of_index he hthis.1 hi)).2
      · intro ha
        rw [(hmem e).1 ⟨he, ha⟩]
    · have hsettled := settledBy_of_filter c.creditMemoId hmatch.symm
      have hamount : candidate.asCash = ⟨candidate.invoiceId, c.line.amountCents⟩ := by
        rw [InvoiceLine.asCash, hthis.2]
      rw [List.map_append, logOn, List.filterMap_append, record_append, ← logOn, ← h.recorded, ← hamount, ← hsettled]
      obtain ⟨line, memo⟩ := c
      cases memo <;> rfl
  · cases hc

theorem Claiming.returns (h : Claiming invoiceLines credits₀ done state) :
    (∃ state', claimLine invoiceLines state c = .ok state') ↔ c.line.amountCents ∉ done.map (·.line.amountCents) ∧
      ((invoiceLines.map (·.asCash)).map (·.amountCents)).count c.line.amountCents = 1 := by
  have hmatch := h.matchesOf_eq c.line.amountCents
  rw [← length_ofAmount, List.length_eq_one_iff]
  unfold claimLine
  split
  · rename_i candidate index hfound
    rw [hfound] at hmatch
    split_ifs at hmatch with hdone
    exact ⟨fun _ => ⟨hdone, _, hmatch.symm⟩, fun _ => ⟨_, rfl⟩⟩
  · rename_i hnone
    constructor
    · rintro ⟨_, h⟩
      cases h
    · rintro ⟨hdone, ⟨candidate, index⟩, hfilter⟩
      rw [if_neg hdone, hfilter] at hmatch
      exact absurd hmatch (hnone candidate index)

theorem claiming_nil : Claiming invoiceLines credits₀ [] ([], credits₀) :=
  ⟨fun _ h => absurd h List.not_mem_nil, fun _ _ => by simp, rfl⟩

/-- The loop returns exactly where each credit is forced. -/
theorem foldlM_claimLine_returns {creditLines : List CreditLine} :
    (∃ state, creditLines.foldlM (claimLine invoiceLines) ([], credits₀) = .ok state) ↔
      Forced (invoiceLines.map (·.asCash)) (creditLines.map (·.asCredit)) := by
  constructor
  · rintro ⟨state, hs⟩
    exact (foldlM_inv (I := Claiming invoiceLines credits₀) (fun h hc => h.step hc) claiming_nil hs).forced
  · intro hforced
    refine (foldlM_returns (I := Claiming invoiceLines credits₀)
      (G := fun p => ∀ done c, p = done ++ [c] → c.line.amountCents ∉ done.map (·.line.amountCents) ∧
        ((invoiceLines.map (·.asCash)).map (·.amountCents)).count c.line.amountCents = 1)
      (fun h hc => h.step hc) (fun h => ?_) claiming_nil).2 ?_
    · rw [h.returns]
      constructor
      · rintro hG done' c' heq
        obtain ⟨rfl, hc⟩ := List.append_inj' heq rfl
        cases hc
        exact hG
      · exact fun hG => hG _ _ rfl
    · rintro p - ⟨rest, rfl⟩ done c rfl
      have hmem : c.asCredit ∈ (done ++ [c] ++ rest).map (·.asCredit) := List.mem_map_of_mem (by simp)
      obtain ⟨h1, h2⟩ := hforced _ hmem
      refine ⟨fun hdone => ?_, h1⟩
      rw [amounts_asCredit, List.map_append, List.map_append, List.count_append, List.count_append] at h2
      have hpos : 0 < (done.map (·.line.amountCents)).count c.asCredit.2 := List.count_pos_iff.2 hdone
      have hself : ([c].map (·.line.amountCents)).count c.asCredit.2 = 1 := by simp [CreditLine.asCredit]
      omega

/-- **Several invoice lines.** The loop returns where each credit is forced, with the rest as cash. -/
theorem splitSeveral_ok {credits : Credits} {creditLines : List CreditLine} {split : List LedgerApplication × Credits} :
    splitSeveral credits invoiceLines creditLines = .ok split ↔
      Forced (invoiceLines.map (·.asCash)) (creditLines.map (·.asCredit)) ∧
        split = ((invoiceLines.map (·.asCash)).filter fun a => a.amountCents ∉ (creditLines.map (·.asCredit)).map (·.2),
          record credits (logOn (settledBy (invoiceLines.map (·.asCash))) (creditLines.map (·.asCredit)))) := by
  have hrest : ∀ {state : List Nat × Credits}, Claiming invoiceLines credits creditLines state →
      (invoiceLines.zipIdx.filter fun e => e.2 ∉ state.1).map (·.1.asCash) =
        (invoiceLines.map (·.asCash)).filter fun a => a.amountCents ∉ (creditLines.map (·.asCredit)).map (·.2) := by
    intro state h
    have hcongr : (invoiceLines.zipIdx.filter fun e => e.2 ∉ state.1) =
        invoiceLines.zipIdx.filter fun e => e.1.line.amountCents ∉ creditLines.map (·.line.amountCents) :=
      List.filter_congr fun e he => by rw [decide_eq_decide, h.claimed e he]
    rw [hcongr, amounts_asCredit, List.filter_map]
    conv_rhs => rw [← List.zipIdx_map_fst 0 invoiceLines]
    rw [List.filter_map, List.map_map]
    rfl
  unfold splitSeveral
  rw [bind_ok]
  constructor
  · rintro ⟨⟨claimed, credits'⟩, hs, h⟩
    have hI := foldlM_inv (I := Claiming invoiceLines credits) (fun h hc => h.step hc) claiming_nil hs
    have hr := hrest hI
    have hc : credits' = _ := hI.recorded
    cases h
    exact ⟨hI.forced, by rw [← hr, ← hc]⟩
  · rintro ⟨hforced, rfl⟩
    obtain ⟨⟨claimed, credits'⟩, hs⟩ := foldlM_claimLine_returns.2 hforced
    have hI := foldlM_inv (I := Claiming invoiceLines credits) (fun h hc => h.step hc) claiming_nil hs
    have hr := hrest hI
    have hc : credits' = _ := hI.recorded
    exact ⟨_, hs, by rw [← hr, ← hc]; rfl⟩

end

/-! ## One invoice line -/

section
variable {path : Text} {credits : Credits} {only : InvoiceLine} {creditLines : List CreditLine}

theorem funded_sum (creditLines : List CreditLine) : ((creditLines.map (·.line.amountCents)).map (·.val)).sum =
    ((creditLines.map (·.asCredit)).map (·.2.val)).sum := by
  rw [List.map_map, List.map_map]
  rfl

theorem splitOne_ok {split : List LedgerApplication × Credits} :
    splitOne path credits only creditLines = .ok split ↔ Running (creditLines.map (·.line.amountCents)) ∧
      ∃ cash : Cents, cash.val = only.line.amountCents.val - ((creditLines.map (·.asCredit)).map (·.2.val)).sum ∧
        0 ≤ cash.val ∧ split = (if 0 < cash.val then [⟨only.invoiceId, cash⟩] else [],
          record credits (logOn (fun c => ⟨only.invoiceId, c.2⟩) (creditLines.map (·.asCredit)))) := by
  rw [← foldl_applyCredit (fun c => ⟨only.invoiceId, c.2⟩) creditLines credits]
  unfold splitOne
  constructor
  · intro h
    obtain ⟨funded, hf, h⟩ := bind_ok.1 h
    rw [orMoney_ok, sumCents_ok, funded_sum] at hf
    obtain ⟨cash, hcash, h⟩ := bind_ok.1 h
    rw [orMoney_ok, subCents_ok, hf.2] at hcash
    dsimp only at h
    by_cases hneg : cash.val < 0
    · rw [if_pos hneg] at h
      cases h
    · rw [if_neg hneg] at h
      cases h
      exact ⟨hf.1, cash, hcash, by omega, rfl⟩
  · rintro ⟨hrun, cash, hcash, hpos, rfl⟩
    obtain ⟨funded, hf⟩ := sumCents_returns.2 hrun
    have hsum := (sumCents_ok.1 hf).2
    rw [funded_sum] at hsum
    refine bind_ok.2 ⟨funded, orMoney_ok.2 hf, bind_ok.2 ⟨cash, orMoney_ok.2 (subCents_ok.2 ?_), ?_⟩⟩
    · rw [hcash, hsum]
    · rw [if_neg (by omega)]
      rfl

/-- One invoice line that has a split is refused for a running total only. -/
theorem splitOne_error {e : Thrown} {cash : Cents}
    (hcash : cash.val = only.line.amountCents.val - ((creditLines.map (·.asCredit)).map (·.2.val)).sum)
    (hpos : 0 ≤ cash.val) (h : splitOne path credits only creditLines = .error e) :
    ¬ Running (creditLines.map (·.line.amountCents)) ∧ ∃ v, e = .money (.outOfRange v) := by
  cases hs : orMoney (sumCents (creditLines.map (·.line.amountCents))) with
  | error e' =>
    unfold splitOne at h
    rw [hs] at h
    cases h
    exact orMoney_sumCents_error hs
  | ok funded =>
    rw [orMoney_ok] at hs
    rw [splitOne_ok.2 ⟨(sumCents_ok.1 hs).1, cash, hcash, hpos, rfl⟩] at h
    cases h

end

/-! ## The whole split -/

section
variable {path : Text} {sorted : Sorted}

/-- What the split of these lines sums before it knows the cash: the credits on a single invoice line. -/
def fundedAmounts (sorted : Sorted) : List Cents :=
  if sorted.invoiceLines.length = 1 then sorted.creditLines.map (·.line.amountCents) else []

theorem running_nil : Running [] := fun k => by simp [InRange, maxSafe]

/-- **The code splits as `Split` says**, as long as the running totals stay in range. -/
theorem splitSorted_ok {split : List LedgerApplication × Credits} : splitSorted path sorted = .ok split ↔
    Running (fundedAmounts sorted) ∧ ∃ log, Split (sorted.invoiceLines.map (·.asCash))
      (sorted.creditLines.map (·.asCredit)) split.1 log ∧ split.2 = record sorted.credits log := by
  obtain ⟨credits, invoiceLines, creditLines⟩ := sorted
  obtain ⟨cash, credits'⟩ := split
  unfold splitSorted fundedAmounts
  dsimp only
  split_ifs with hnil hlen hlen
  · subst hnil
    constructor
    · intro h
      cases h
      exact ⟨running_nil, [], .cash, rfl⟩
    · rintro ⟨-, log, h, rfl⟩
      cases h with
      | cash => rfl
      | one hne => exact absurd rfl hne
      | several hne => exact absurd rfl hne
  · subst hnil
    constructor
    · intro h
      cases h
      exact ⟨running_nil, [], .cash, rfl⟩
    · rintro ⟨-, log, h, rfl⟩
      cases h with
      | cash => rfl
      | one hne => exact absurd rfl hne
      | several hne => exact absurd rfl hne
  · obtain ⟨only, rfl⟩ := List.length_eq_one_iff.1 hlen
    have hne : creditLines.map (·.asCredit) ≠ [] := by simpa using hnil
    dsimp only
    rw [splitOne_ok]
    refine and_congr_right fun _ => ⟨?_, ?_⟩
    · rintro ⟨c, hc, hpos, heq⟩
      cases heq
      exact ⟨_, .one hne rfl hc hpos, rfl⟩
    · rintro ⟨log, h, rfl⟩
      generalize hcs : creditLines.map (·.asCredit) = cs at h hne
      cases h with
      | cash => exact absurd rfl hne
      | @one _ only' c _ hone hc hpos =>
        cases hone
        exact ⟨c, hc, hpos, rfl⟩
      | several _ hlen' => exact absurd rfl hlen'
  · have hne : creditLines.map (·.asCredit) ≠ [] := by simpa using hnil
    have hlen' : (invoiceLines.map (·.asCash)).length ≠ 1 := by simpa using hlen
    split
    · exact absurd rfl hlen
    rw [splitSeveral_ok]
    constructor
    · rintro ⟨hforced, heq⟩
      cases heq
      exact ⟨running_nil, _, .several hne hlen' hforced, rfl⟩
    · rintro ⟨-, log, h, rfl⟩
      generalize creditLines.map (·.asCredit) = cs at h hne
      cases h with
      | cash => exact absurd rfl hne
      | one _ hone => exact absurd (by rw [hone]; rfl) hlen'
      | several _ _ hforced => exact ⟨hforced, rfl⟩

/-- Lines that have a split are refused for a running total only. -/
theorem splitSorted_error {cash : List LedgerApplication} {log : CreditLog} {e : Thrown}
    (hsplit : Split (sorted.invoiceLines.map (·.asCash)) (sorted.creditLines.map (·.asCredit)) cash log)
    (h : splitSorted path sorted = .error e) :
    ¬ Running (fundedAmounts sorted) ∧ ∃ v, e = .money (.outOfRange v) := by
  have hrun : ¬ Running (fundedAmounts sorted) := fun hrun => by
    have hok : splitSorted path sorted = .ok (cash, record sorted.credits log) :=
      splitSorted_ok.2 ⟨hrun, log, hsplit, rfl⟩
    rw [hok] at h
    cases h
  refine ⟨hrun, ?_⟩
  obtain ⟨credits, invoiceLines, creditLines⟩ := sorted
  unfold fundedAmounts at hrun
  dsimp only at hrun hsplit
  split_ifs at hrun with hlen
  · obtain ⟨only, rfl⟩ := List.length_eq_one_iff.1 hlen
    unfold splitSorted at h
    dsimp only at h
    split_ifs at h with hnil
    generalize hcs : creditLines.map (·.asCredit) = cs at hsplit
    cases hsplit with
    | cash => exact absurd (by simpa using hcs) hnil
    | @one _ only' c _ hone hc hpos =>
      cases hone
      subst hcs
      exact (splitOne_error hc hpos h).2
    | several _ hlen' => exact absurd rfl hlen'
  · exact absurd running_nil hrun

end

/-! ## The whole row -/

section
variable {T : CaseTables} {row : JsonObject} {path : Text}

theorem boundCash_ok {total : Cents} {split : List LedgerApplication × Credits} {r : PaymentApplications} :
    boundCash path total split = .ok r ↔ Running (split.1.map (·.amountCents)) ∧
      (split.1.map (·.amountCents.val)).sum ≤ total.val ∧ r = ⟨total, split.1, split.2⟩ := by
  have hsum : ((split.1.map (·.amountCents)).map (·.val)).sum = (split.1.map (·.amountCents.val)).sum := by
    rw [List.map_map]
    rfl
  unfold boundCash
  constructor
  · intro h
    obtain ⟨cash, hc, h⟩ := bind_ok.1 h
    rw [orMoney_ok, sumCents_ok, hsum] at hc
    split_ifs at h with hmore
    · cases h
    · cases h
      exact ⟨hc.1, by omega, rfl⟩
  · rintro ⟨hrun, hle, rfl⟩
    obtain ⟨cash, hc⟩ := sumCents_returns.2 hrun
    have := (sumCents_ok.1 hc).2
    refine bind_ok.2 ⟨cash, orMoney_ok.2 hc, ?_⟩
    rw [if_neg (by omega)]
    rfl

theorem boundCash_error {total : Cents} {split : List LedgerApplication × Credits} {e : Thrown}
    (hle : (split.1.map (·.amountCents.val)).sum ≤ total.val) (h : boundCash path total split = .error e) :
    ¬ Running (split.1.map (·.amountCents)) ∧ ∃ v, e = .money (.outOfRange v) := by
  cases hs : orMoney (sumCents (split.1.map (·.amountCents))) with
  | error e' =>
    unfold boundCash at h
    rw [hs] at h
    cases h
    exact orMoney_sumCents_error hs
  | ok cash =>
    rw [orMoney_ok] at hs
    rw [boundCash_ok.2 ⟨(sumCents_ok.1 hs).1, hle, rfl⟩] at h
    cases h

/-- The invoice lines among these lines. -/
def invoicesOf (lines : List PaymentLine) : List LedgerApplication :=
  (lines.filterMap invoiceLineOf).map (·.asCash)

/-- The credit lines among these lines. -/
def creditsOf (lines : List PaymentLine) : List Credit := (lines.filterMap creditLineOf).map (·.asCredit)

/-- **What an accepted row is**: its lines have a split within the payment, and no running total left the
range of safe integers. -/
theorem readPaymentApplications_ok {r : PaymentApplications} : readPaymentApplications T row path = .ok r ↔
    ∃ lines log, qboAmountToCents T (field row "TotalAmt") (member path "TotalAmt") = .ok r.totalCents ∧
      readPaymentLines T row path = .ok lines ∧ Split (invoicesOf lines) (creditsOf lines) r.cash log ∧
      r.credits = record [] (lines.filterMap sameLineOf ++ log) ∧
      (r.cash.map (·.amountCents.val)).sum ≤ r.totalCents.val ∧
      Running (fundedAmounts (sortLines lines)) ∧ Running (r.cash.map (·.amountCents)) := by
  unfold readPaymentApplications
  constructor
  · intro h
    obtain ⟨total, ht, h⟩ := bind_ok.1 h
    obtain ⟨lines, hl, h⟩ := bind_ok.1 h
    obtain ⟨split, hs, h⟩ := bind_ok.1 h
    obtain ⟨hrun, log, hsplit, hcredits⟩ := splitSorted_ok.1 hs
    obtain ⟨hcash, hle, rfl⟩ := boundCash_ok.1 h
    rw [sortLines_eq] at hsplit hcredits
    exact ⟨lines, log, ht, hl, hsplit, by rw [record_append]; exact hcredits, hle, hrun, hcash⟩
  · rintro ⟨lines, log, ht, hl, hsplit, hcredits, hle, hrun, hcash⟩
    rw [record_append] at hcredits
    refine bind_ok.2 ⟨_, ht, bind_ok.2 ⟨lines, hl, bind_ok.2 ⟨(r.cash, r.credits), splitSorted_ok.2 ⟨hrun, log, ?_, ?_⟩,
      boundCash_ok.2 ⟨hcash, hle, rfl⟩⟩⟩⟩
    · rw [sortLines_eq]
      exact hsplit
    · rw [sortLines_eq]
      exact hcredits

/-- A row that has a split within the payment is refused for a running total only. -/
theorem readPaymentApplications_error {lines : List PaymentLine} {total : Cents} {cash : List LedgerApplication}
    {log : CreditLog} {e : Thrown}
    (ht : qboAmountToCents T (field row "TotalAmt") (member path "TotalAmt") = .ok total)
    (hl : readPaymentLines T row path = .ok lines) (hsplit : Split (invoicesOf lines) (creditsOf lines) cash log)
    (hle : (cash.map (·.amountCents.val)).sum ≤ total.val) (h : readPaymentApplications T row path = .error e) :
    ¬ (Running (fundedAmounts (sortLines lines)) ∧ Running (cash.map (·.amountCents))) ∧
      ∃ v, e = .money (.outOfRange v) := by
  have hsplit' : Split ((sortLines lines).invoiceLines.map (·.asCash)) ((sortLines lines).creditLines.map (·.asCredit))
      cash log := by
    rw [sortLines_eq]
    exact hsplit
  unfold readPaymentApplications at h
  rw [ht] at h
  change (readPaymentLines T row path >>= _) = _ at h
  rw [hl] at h
  change (splitSorted path (sortLines lines) >>= _) = _ at h
  cases hs : splitSorted path (sortLines lines) with
  | error e' =>
    rw [hs] at h
    cases h
    obtain ⟨hrun, he⟩ := splitSorted_error hsplit' hs
    exact ⟨fun hboth => hrun hboth.1, he⟩
  | ok split =>
    rw [hs] at h
    obtain ⟨-, log', hsplit'', -⟩ := splitSorted_ok.1 hs
    obtain ⟨rfl, -⟩ := hsplit'.unique hsplit''
    obtain ⟨hrun, he⟩ := boundCash_error hle h
    exact ⟨fun hboth => hrun hboth.2, he⟩

end

end Recouple.Qbo
