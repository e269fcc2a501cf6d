import Recouple.Lib.KeyedFold
import Recouple.Pipeline.Growth
import Recouple.Pipeline.SharedInvoices

/-!
# The opener and the explainer of a remittance line

A case that a line opens carries the line's claim id and its short-pay. The case page finds the line again
by that claim id (`remittanceLineOfCase`) and reconciles it (`reconcileRemittanceLine`). The two agree
about a line exactly if no earlier line of the advice builds the same claim id and the line's own
arithmetic stays in the range of safe integers (`opened_line_explained_iff`).
-/

namespace Recouple.Pipeline
open Js Extraction Calls KeyedFold

section
variable (T : CaseTables)

/-- The claim id of a line of the advice. -/
def claimIdAt (advice : RemittanceAdvice) (i : Nat) : Option Text :=
  ((lineClaimIds T advice.lines (printedIdentifier advice.payment_reference))[i]?.join).map (·.claimId)

/-- No earlier line of the advice builds the line's claim id. -/
def FirstOfItsClaim (advice : RemittanceAdvice) (i : Nat) : Prop :=
  ∀ j < i, claimIdAt T advice j ≠ claimIdAt T advice i

/-- The amounts the lines of a shared invoice add: `none` where one of them is unreadable. -/
def sharedAmounts (lines : List RemittanceLine) (i : Nat) (gross net : Cents) : Option (List Cents) :=
  (i :: sharingInvoice T lines i gross net).mapM fun j => sharedDeduction T lines[j]?

/-- The printed deductions are what the columns imply: this line's alone, or with those that share the
invoice. -/
def AddsUp (lines : List RemittanceLine) (i : Nat) (printed gross net : Cents) : Prop :=
  if sharingInvoice T lines i gross net = [] then printed.val = gross.val - net.val
  else ∃ amounts, sharedAmounts T lines i gross net = some amounts ∧
    (amounts.map (·.val)).sum = gross.val - net.val

/-- What is computed about a line that prints its deduction, its gross and its net stays in range: gross
less net, the running sums over a shared invoice, and by how much the deduction is off where it is. -/
def InSafeRange (lines : List RemittanceLine) (i : Nat) : Prop :=
  ∀ row printed gross net, lines[i]? = some row → printsOwnDeduction row = true →
    quietMoney T row.deduction_amount = some printed → quietMoney T row.gross_amount = some gross →
    quietMoney T row.net_amount = some net →
      InRange (gross.val - net.val) ∧
      (sharingInvoice T lines i gross net ≠ [] → ∀ amounts, sharedAmounts T lines i gross net = some amounts →
        ∀ k, InRange ((amounts.take k).map (·.val)).sum) ∧
      (¬ AddsUp T lines i printed gross net → InRange (printed.val - (gross.val - net.val)))

end

section
variable {T : CaseTables}

/-! ## The explainer's arithmetic -/

theorem money_fst (field : Option Text) (path : Text) : (money T field path).1 = quietMoney T field := by
  cases field with
  | none => rfl
  | some text =>
    simp only [money, quietMoney, Option.bind_some]
    cases parseMoneyToCents T text <;> rfl

/-- The verdict on a line that prints a deduction: it is computed exactly if the sums stay in range, and
says whether they add up. -/
theorem checkShare_printed {lines : List RemittanceLine} {i : Nat} {label : Text} {printed gross net implied : Cents}
    (himplied : implied.val = gross.val - net.val) :
    ((∃ r, checkShare T lines i label (some printed) gross net implied = .ok r) ↔
      (sharingInvoice T lines i gross net ≠ [] → ∀ amounts, sharedAmounts T lines i gross net = some amounts →
        ∀ k, InRange ((amounts.take k).map (·.val)).sum)) ∧
    ∀ r, checkShare T lines i label (some printed) gross net implied = .ok r →
      (r.1 = .agrees ↔ AddsUp T lines i printed gross net) := by
  have hval : ∀ a b : Cents, a = b ↔ a.val = b.val := by
    intro a b
    cases a; cases b
    simp
  unfold checkShare AddsUp
  dsimp only
  by_cases hsib : sharingInvoice T lines i gross net = []
  · rw [if_pos hsib, if_pos hsib]
    by_cases heq : printed = implied
    · rw [if_pos heq]
      refine ⟨⟨fun _ h => absurd hsib h, fun _ => ⟨_, rfl⟩⟩, ?_⟩
      rintro r ⟨⟩
      exact ⟨fun _ => by rw [heq, himplied], fun _ => rfl⟩
    · rw [if_neg heq]
      refine ⟨⟨fun _ h => absurd hsib h, fun _ => ⟨_, rfl⟩⟩, ?_⟩
      rintro r ⟨⟩
      refine ⟨fun h => (by cases h), fun h => absurd ((hval _ _).2 ?_) heq⟩
      rw [h, himplied]
  · rw [if_neg hsib, if_neg hsib]
    cases hamounts : sharedAmounts T lines i gross net with
    | none =>
      have hshared : sharedDeductions T lines (i :: sharingInvoice T lines i gross net) = .ok none := by
        unfold sharedDeductions
        unfold sharedAmounts at hamounts
        rw [hamounts]
      rw [hshared]
      refine ⟨⟨fun _ _ _ h => (by cases h), fun _ => ⟨_, rfl⟩⟩, ?_⟩
      rintro r ⟨⟩
      constructor
      · intro h
        cases h
      · rintro ⟨_, h, _⟩
        cases h
    | some amounts =>
      have hshared : sharedDeductions T lines (i :: sharingInvoice T lines i gross net) =
          (sumCents amounts).map some := by
        unfold sharedDeductions
        unfold sharedAmounts at hamounts
        rw [hamounts]
      rw [hshared]
      cases hsum : sumCents amounts with
      | error e =>
        refine ⟨⟨fun hr => (by cases hr.choose_spec), fun h => ?_⟩, fun r hr => by cases hr⟩
        obtain ⟨c, hc⟩ := sumCents_returns.2 (h hsib amounts rfl)
        rw [hsum] at hc
        cases hc
      | ok c =>
        obtain ⟨hrange, hc⟩ := sumCents_ok.1 hsum
        have hagree : some c = some implied ↔
            ∃ a, some amounts = some a ∧ (a.map (·.val)).sum = gross.val - net.val := by
          rw [Option.some.injEq, hval, hc, himplied]
          constructor
          · exact fun h => ⟨amounts, rfl, h⟩
          · rintro ⟨a, ha, h⟩
            cases ha
            exact h
        show ((∃ r, (if some c = some implied then _ else _) = _) ↔ _) ∧ ∀ r, (if some c = some implied then _ else _) = _ → _
        rw [← hagree]
        split
        · rename_i h
          exact ⟨⟨fun _ _ a ha => by cases ha; exact hrange, fun _ => ⟨_, rfl⟩⟩, by rintro r ⟨⟩; exact ⟨fun _ => h, fun _ => rfl⟩⟩
        · rename_i h
          exact ⟨⟨fun _ _ a ha => by cases ha; exact hrange, fun _ => ⟨_, rfl⟩⟩, by rintro r ⟨⟩; exact ⟨fun h'' => (by cases h''), fun h' => absurd h' h⟩⟩

/-! ## The two amounts -/

/-- The deduction the explainer reads: a dash is none. -/
def explainedDeduction (T : CaseTables) (row : RemittanceLine) : Option Cents :=
  if printsDash row.deduction_amount then none else quietMoney T row.deduction_amount

theorem quietMoney_of_not_printed {field : Option Text} (h : fieldWasPrinted field = false) : quietMoney T field = none := by
  cases field with
  | none => rfl
  | some text =>
    have hblank : trim text = [] := by simpa [fieldWasPrinted] using h
    rw [quietMoney, Option.bind_some, parseMoneyToCents_blank T hblank]
    rfl

/-- The opener prices a line by its own deduction, or by gross less net. -/
theorem shortPayOnLine_cents {row : RemittanceLine} {c : Cents} {basis : AmountBasis}
    (h : shortPayOnLine T row = .ok (.cents c basis)) :
    (printsOwnDeduction row = true ∧ explainedDeduction T row = some c) ∨
    (printsOwnDeduction row = false ∧ explainedDeduction T row = none ∧ ∃ gross net,
      quietMoney T row.gross_amount = some gross ∧ quietMoney T row.net_amount = some net ∧ subCents gross net = .ok c) := by
  unfold shortPayOnLine at h
  split at h
  · rename_i hown
    refine .inl ⟨hown, ?_⟩
    have hdash : printsDash row.deduction_amount = false := by
      rw [printsOwnDeduction, Bool.and_eq_true, Bool.not_eq_true'] at hown
      exact hown.2
    split at h
    · cases h
    · rename_i printed hp
      cases h
      rw [explainedDeduction, hdash, ← quietMoney_eq]
      exact hp
  · rename_i hown
    rw [Bool.not_eq_true] at hown
    have hnone : explainedDeduction T row = none := by
      unfold explainedDeduction
      split
      · rfl
      · rename_i hdash
        refine quietMoney_of_not_printed ?_
        rw [printsOwnDeduction, Bool.and_eq_false_iff, Bool.not_eq_false'] at hown
        exact hown.resolve_right hdash
    refine .inr ⟨hown, hnone, ?_⟩
    dsimp only at h
    split at h
    · cases h
    · rw [quietMoney_eq, quietMoney_eq] at h
      split at h
      · rename_i gross net hg hn
        obtain ⟨d, hd, heq⟩ := map_ok.1 h
        cases heq
        exact ⟨gross, net, hg, hn, hd⟩
      · cases h

/-- The deduction a line should have printed. -/
def expectedOf (printed implied : Option Cents) (verdict : LineVerdict) : Option Cents :=
  if verdict = .agrees ∧ printed.isSome then printed else implied

/-- The row is made of what `checkColumns` finds, if that and the difference are computed. -/
theorem reconcileLine_claims {lines : List RemittanceLine} {i : Nat} {row : RemittanceLine}
    {invoice : Option InvoiceTotals} {c : Cents} :
    (∃ r, reconcileLine T lines i row invoice = .ok r ∧ r.1.claimedCents = some c) ↔
    ∃ v, checkColumns T lines i (row.invoice_number.getD ("line ".toList ++ decimal (i + 1)))
        (printsDash row.deduction_amount) (explainedDeduction T row) (quietMoney T row.gross_amount)
        (quietMoney T row.net_amount) = .ok v ∧
      (explainedDeduction T row).or v.1 = some c ∧
      ∃ d, differenceOf (explainedDeduction T row) (expectedOf (explainedDeduction T row) v.1 v.2.1) = .ok d := by
  unfold reconcileLine
  dsimp only
  have hprinted : (if printsDash row.deduction_amount then ((none, []) : Option Cents × List Finding)
      else money T row.deduction_amount ("lines[".toList ++ decimal i ++ [']'] ++ ".deduction_amount".toList)).1 =
      explainedDeduction T row := by
    unfold explainedDeduction
    split
    · rfl
    · exact money_fst ..
  rcases hp : (if printsDash row.deduction_amount then ((none, []) : Option Cents × List Finding)
      else money T row.deduction_amount ("lines[".toList ++ decimal i ++ [']'] ++ ".deduction_amount".toList)) with ⟨printed, f₁⟩
  rcases hg : money T row.gross_amount ("lines[".toList ++ decimal i ++ [']'] ++ ".gross_amount".toList) with ⟨gross, f₂⟩
  rcases hn : money T row.net_amount ("lines[".toList ++ decimal i ++ [']'] ++ ".net_amount".toList) with ⟨net, f₃⟩
  have hgross : gross = quietMoney T row.gross_amount := by rw [← money_fst, hg]
  have hnet : net = quietMoney T row.net_amount := by rw [← money_fst, hn]
  rw [hp] at hprinted
  dsimp only at hprinted ⊢
  subst hprinted hgross hnet
  constructor
  · rintro ⟨r, hr, hclaim⟩
    obtain ⟨⟨implied, verdict, f₄⟩, hv, hr⟩ := bind_ok.1 hr
    obtain ⟨d, hd, hr⟩ := bind_ok.1 hr
    cases hr
    exact ⟨_, hv, hclaim, d, hd⟩
  · rintro ⟨⟨implied, verdict, f₄⟩, hv, hclaim, d, hd⟩
    exact ⟨_, bind_ok.2 ⟨_, hv, bind_ok.2 ⟨d, hd, rfl⟩⟩, hclaim⟩

/-- A line that prints a deduction, a gross and a net is reconciled exactly if its numbers stay in range. -/
theorem columns_return {lines : List RemittanceLine} {i : Nat} {label : Text} {dash : Bool} {c gross net : Cents} :
    (∃ v, checkColumns T lines i label dash (some c) (some gross) (some net) = .ok v ∧ (some c).or v.1 = some c ∧
      ∃ d, differenceOf (some c) (expectedOf (some c) v.1 v.2.1) = .ok d) ↔
    InRange (gross.val - net.val) ∧
      (sharingInvoice T lines i gross net ≠ [] → ∀ amounts, sharedAmounts T lines i gross net = some amounts →
        ∀ k, InRange ((amounts.take k).map (·.val)).sum) ∧
      (¬ AddsUp T lines i c gross net → InRange (c.val - (gross.val - net.val))) := by
  have hdifference : ∀ (implied : Cents) (verdict : LineVerdict),
      (∃ d, differenceOf (some c) (expectedOf (some c) (some implied) verdict) = .ok d) ↔
        (verdict ≠ .agrees → InRange (c.val - implied.val)) := by
    intro implied verdict
    have hmap : ∀ e : Cents, (∃ d, (subCents c e).map some = .ok d) ↔ InRange (c.val - e.val) := by
      intro e
      rw [← subCents_returns]
      constructor
      · rintro ⟨d, hd⟩
        obtain ⟨x, hx, -⟩ := map_ok.1 hd
        exact ⟨x, hx⟩
      · rintro ⟨x, hx⟩
        exact ⟨_, map_ok.2 ⟨x, hx, rfl⟩⟩
    unfold differenceOf expectedOf
    by_cases hagrees : verdict = .agrees
    · rw [if_pos ⟨hagrees, rfl⟩]
      refine (hmap c).trans (iff_of_true ?_ fun h => absurd hagrees h)
      rw [Int.sub_self]
      decide
    · rw [if_neg fun h => hagrees h.1]
      exact (hmap implied).trans ⟨fun h _ => h, fun h => h hagrees⟩
  unfold checkColumns
  dsimp only
  constructor
  · rintro ⟨v, hv, -, hd⟩
    obtain ⟨implied, himplied, hv⟩ := bind_ok.1 hv
    obtain ⟨share, hshare, hv⟩ := bind_ok.1 hv
    cases hv
    rw [subCents_ok] at himplied
    obtain ⟨hreturns, hverdict⟩ := @checkShare_printed T lines i label c gross net implied himplied
    refine ⟨himplied ▸ implied.inRange, hreturns.1 ⟨_, hshare⟩, fun hnot => ?_⟩
    rw [← himplied]
    exact (hdifference implied share.1).1 hd fun h => hnot ((hverdict _ hshare).1 h)
  · rintro ⟨himplied, hsums, hdelta⟩
    obtain ⟨implied, hsub⟩ := subCents_returns.2 himplied
    have hval := subCents_ok.1 hsub
    obtain ⟨hreturns, hverdict⟩ := @checkShare_printed T lines i label c gross net implied hval
    obtain ⟨share, hshare⟩ := hreturns.2 hsums
    refine ⟨_, bind_ok.2 ⟨implied, hsub, bind_ok.2 ⟨share, hshare, rfl⟩⟩, rfl, (hdifference implied share.1).2 fun h => ?_⟩
    rw [hval]
    exact hdelta fun hadds => h ((hverdict _ hshare).2 hadds)

/-- **The explainer states the opener's amount exactly if its arithmetic stays in range.** -/
theorem reconcileRemittanceLine_states {advice : RemittanceAdvice} {i : Nat} {row : RemittanceLine} {c : Cents}
    {basis : AmountBasis} (hrow : advice.lines[i]? = some row) (hpay : shortPayOnLine T row = .ok (.cents c basis))
    (invoice : Option InvoiceTotals) (evidence : List Finding) :
    (∃ r, reconcileRemittanceLine T (some (advice, i)) invoice evidence = .ok r ∧ r.claimedTotalCents = some c) ↔
      InSafeRange T advice.lines i := by
  have hline : (∃ r, reconcileRemittanceLine T (some (advice, i)) invoice evidence = .ok r ∧
      r.claimedTotalCents = some c) ↔
      ∃ r, reconcileLine T advice.lines i row invoice = .ok r ∧ r.1.claimedCents = some c := by
    unfold reconcileRemittanceLine
    rw [Option.bind_some]
    dsimp only
    rw [hrow, Option.map_some]
    dsimp only
    constructor
    · rintro ⟨r, hr, hclaim⟩
      obtain ⟨y, hy, hr⟩ := bind_ok.1 hr
      cases hr
      exact ⟨y, hy, hclaim⟩
    · rintro ⟨y, hy, hclaim⟩
      exact ⟨_, bind_ok.2 ⟨y, hy, rfl⟩, hclaim⟩
  rw [hline, reconcileLine_claims]
  rcases shortPayOnLine_cents hpay with ⟨hown, hprinted⟩ | ⟨hown, hprinted, gross, net, hg, hn, hsub⟩
  · rw [hprinted]
    have hdash : printsDash row.deduction_amount = false := by
      rw [printsOwnDeduction, Bool.and_eq_true, Bool.not_eq_true'] at hown
      exact hown.2
    have hquiet : quietMoney T row.deduction_amount = some c := by
      rw [explainedDeduction, hdash] at hprinted
      exact hprinted
    cases hg : quietMoney T row.gross_amount with
    | none =>
      -- no columns: the line is not checkable
      refine ⟨fun _ row' printed gross net hrow' _ _ hg' => ?_, fun _ => ⟨_, rfl, rfl, none, rfl⟩⟩
      rw [hrow, Option.some.injEq] at hrow'
      subst hrow'
      rw [hg] at hg'
      cases hg'
    | some gross =>
      cases hn : quietMoney T row.net_amount with
      | none =>
        refine ⟨fun _ row' printed gross net hrow' _ _ _ hn' => ?_, fun _ => ⟨_, rfl, rfl, none, rfl⟩⟩
        rw [hrow, Option.some.injEq] at hrow'
        subst hrow'
        rw [hn] at hn'
        cases hn'
      | some net =>
        rw [columns_return]
        constructor
        · rintro hrange row' printed gross' net' hrow' - hp hg' hn'
          rw [hrow, Option.some.injEq] at hrow'
          subst hrow'
          rw [hquiet, Option.some.injEq] at hp
          rw [hg, Option.some.injEq] at hg'
          rw [hn, Option.some.injEq] at hn'
          subst hp hg' hn'
          exact hrange
        · exact fun h => h row c gross net hrow hown hquiet hg hn
  · -- the subtraction is the opener's own
    have hrange : InSafeRange T advice.lines i := by
      intro row' printed gross' net' hrow' hown'
      rw [hrow, Option.some.injEq] at hrow'
      subst hrow'
      rw [hown] at hown'
      cases hown'
    rw [hprinted, hg, hn]
    refine iff_of_true ?_ hrange
    unfold checkColumns
    dsimp only
    rw [hsub]
    exact ⟨_, rfl, rfl, none, rfl⟩

/-! ## The line a case was opened from -/

/-- The case page finds the first line that builds the case's claim id. -/
theorem lineOfAdvice_first {advice : RemittanceAdvice} {i : Nat} {claim : Text} {amount : Option Int}
    (hclaim : claimIdAt T advice i = some claim) :
    lineOfAdvice T advice ⟨some claim, amount⟩ = .ok (some i) ↔ FirstOfItsClaim T advice i := by
  let keys := lineClaimIds T advice.lines (printedIdentifier advice.payment_reference)
  let matching (key : Option LineKey) : Bool := key.map (·.claimId) = some claim
  have hat : ∀ j (hj : j < keys.length), matching keys[j] = true ↔ claimIdAt T advice j = some claim := by
    intro j hj
    have hget : claimIdAt T advice j = (keys[j]).map (·.claimId) := by
      show ((keys[j]?).join).map (·.claimId) = _
      rw [List.getElem?_eq_getElem hj]
      rfl
    rw [hget]
    exact decide_eq_true_iff
  have hlt : i < keys.length := by
    by_contra hge
    have hnone : claimIdAt T advice i = none := by
      show ((keys[i]?).join).map (·.claimId) = none
      rw [List.getElem?_eq_none (by omega)]
      rfl
    rw [hnone] at hclaim
    cases hclaim
  have hfirst : keys.findIdx? matching = some i ↔ FirstOfItsClaim T advice i := by
    rw [List.findIdx?_eq_some_iff_getElem]
    constructor
    · rintro ⟨_, _, hbefore⟩ j hj heq
      exact hbefore j hj ((hat j (by omega)).2 (heq.trans hclaim))
    · intro h
      exact ⟨hlt, (hat i hlt).2 hclaim, fun j hj hmatch => h j hj (((hat j (by omega)).1 hmatch).trans hclaim.symm)⟩
  rw [← hfirst]
  cases hfound : keys.findIdx? matching with
  | none =>
    rw [List.findIdx?_eq_none_iff] at hfound
    exact absurd ((hat i hlt).2 hclaim) (by rw [hfound _ (List.getElem_mem hlt)]; decide)
  | some k =>
    have hline : lineOfAdvice T advice ⟨some claim, amount⟩ = .ok (some k) := by
      unfold lineOfAdvice
      dsimp only
      rw [hfound]
    rw [hline]
    constructor
    · intro h
      cases h
      rfl
    · intro h
      cases h
      rfl

theorem lineOfAdvices_singleton {advice : RemittanceAdvice} {record : LineCase} {i : Nat} :
    lineOfAdvices T [advice] record = .ok (some (advice, i)) ↔ lineOfAdvice T advice record = .ok (some i) := by
  unfold lineOfAdvices
  rw [bind_ok]
  constructor
  · rintro ⟨found, hfound, h⟩
    cases found with
    | none => cases h
    | some k =>
      cases h
      exact hfound
  · exact fun h => ⟨_, h, rfl⟩

/-- A line that prints its invoice carries the key of its row. -/
theorem claimIdAt_of_printed {advice : RemittanceAdvice} {index : Nat} {row : RemittanceLine} {line : ShortLine}
    (hrow : advice.lines[index]? = some row)
    (hinvoice : printedIdentifier row.invoice_number = some line.invoiceNumber) (hat : line.index = index) (o : Opening)
    (hkeys : o.keys = lineClaimIds T advice.lines (printedIdentifier advice.payment_reference)) :
    claimIdAt T advice index = some (o.claimIdOf line) := by
  obtain ⟨key, hkey⟩ : ∃ key, lineKey T advice.lines (printedIdentifier advice.payment_reference) index row = some key := by
    rw [lineKey, hinvoice]
    exact ⟨_, rfl⟩
  have hget : (lineClaimIds T advice.lines (printedIdentifier advice.payment_reference))[index]? = some (some key) :=
    (lineClaimIds_eq_some T).2 ⟨row, hrow, hkey⟩
  rw [claimIdAt, Opening.claimIdOf, hkeys, hat, hget]
  rfl

/-- A short-pay of the whole advice that has an amount is the line's own. -/
theorem shortPayOnLine_of_cents {advice : RemittanceAdvice} {index : Nat} {row : RemittanceLine}
    {shortPays : List ShortPay} {c : Cents} {basis : AmountBasis} (hpays : adviceShortPays T advice = .ok shortPays)
    (hrow : advice.lines[index]? = some row) (hpay : shortPays[index]? = some (.cents c basis)) :
    shortPayOnLine T row = .ok (.cents c basis) := by
  have hall := mapM_forall₂ hpays
  obtain ⟨hlt, hget⟩ := List.getElem?_eq_some_iff.1 hpay
  have hlt' : index < advice.lines.zipIdx.length := by rw [hall.length_eq]; exact hlt
  have h := hall.get hlt' hlt
  have hentry : advice.lines.zipIdx.get ⟨index, hlt'⟩ = (row, index) := by
    rw [List.get_eq_getElem, List.getElem_zipIdx, Nat.zero_add, (List.getElem?_eq_some_iff.1 hrow).2]
  rw [hentry, List.get_eq_getElem, hget] at h
  dsimp only at h
  split at h
  · cases h
  · exact h

/-- **Opener and explainer.** Of a line that `openCasesFromRemittance` has opened a case from, at whatever
store comes later: the case page finds that line and states the case's amount, if and only if no earlier
line of the advice builds the same claim id and the line's arithmetic stays in range. -/
theorem opened_line_explained_iff {tenant : Tenant} {tryParsePrintedDate : Text → Except Text Text}
    {document : CaseOpeningDocument} {reading : CaseOpeningReading} {confirmation : Option HoldConfirmation}
    {count : Nat} {faults : Faults} {n m : Nat} {s s₁ s₂ : Store} {acc : LineLoop} {result : RemittanceLineResult}
    (hrun : lineLoop T tenant tryParsePrintedDate document reading confirmation count faults n s = (.ok acc, m, s₁))
    (hlater : s₁.Extends s₂) (hresult : result ∈ acc.lines)
    (hopened : result.outcome = .opened ∨ result.outcome = .probable_duplicate)
    (invoice : Option InvoiceTotals) (evidence : List Finding) :
    (∃ id record, result.deductionId = some id ∧ s₂.getCase id = some record ∧
      remittanceLineOfCase T s₂ id [reading.advice] = .ok (some (some (reading.advice, result.index))) ∧
      ∃ r, reconcileRemittanceLine T (some (reading.advice, result.index)) invoice evidence = .ok r ∧
        r.claimedTotalCents = record.deductionAmountCents) ↔
    FirstOfItsClaim T reading.advice result.index ∧ InSafeRange T reading.advice.lines result.index := by
  obtain ⟨-, shortPays, hpays, hall⟩ := (lineLoop_triple (P := fun _ => True) (E := fun _ _ => True) count
    (Kept.const True) (fun _ _ _ => trivial) (fun _ _ _ _ _ => trivial) fun _ _ _ _ => trivial).ok trivial hrun
  -- the row the result is of
  obtain ⟨k, hk, rfl⟩ := List.getElem_of_mem hresult
  have hk' : k < (reading.advice.lines.zipIdx.take count).length := by rw [hall.length_eq]; exact hk
  obtain ⟨hindex, hholds⟩ := hall.get hk' hk
  generalize hentry : (reading.advice.lines.zipIdx.take count).get ⟨k, hk'⟩ = entry at hindex hholds
  obtain ⟨row, index⟩ := entry
  have hmem : (row, index) ∈ reading.advice.lines.zipIdx :=
    List.mem_of_mem_take (hentry ▸ List.get_mem _ ⟨k, hk'⟩)
  have hrow : reading.advice.lines[index]? = some row := List.mk_mem_zipIdx_iff_getElem?.1 hmem
  rw [show acc.lines[k].index = index from hindex]
  cases hline : overFloorLine T (openingOf T tenant tryParsePrintedDate document reading confirmation shortPays)
      (row, index) with
  | none =>
    rw [hline] at hholds
    rcases hopened with h | h
    · exact absurd h hholds.1
    · exact absurd h hholds.2.1
  | some line =>
    rw [hline] at hholds
    obtain ⟨hpay, hinvoice, hat, -⟩ := overFloorLine_eq_some.1 hline
    obtain ⟨-, id, hid, (⟨-, hcase, -⟩ | ⟨hmerged, -⟩)⟩ := hholds
    swap
    · rcases hopened with h | h
      · cases h.symm.trans hmerged
      · cases h.symm.trans hmerged
    obtain ⟨record, hget, hclaim, hamount, hvia⟩ := Kept.caseOf _ _ _ _ _ hlater hcase
    -- the claim id is the line's key, and the amount is the line's own
    have hclaimAt := claimIdAt_of_printed hrow hinvoice hat (openingOf T tenant tryParsePrintedDate document reading
      confirmation shortPays) rfl
    have hshort := shortPayOnLine_of_cents hpays hrow hpay
    have hpage : remittanceLineOfCase T s₂ id [reading.advice] = .ok (some (some (reading.advice, index))) ↔
        FirstOfItsClaim T reading.advice index := by
      unfold remittanceLineOfCase
      rw [hget]
      dsimp only
      rw [if_pos hvia, hclaim, map_ok]
      constructor
      · rintro ⟨found, hfound, h⟩
        cases h
        exact (lineOfAdvice_first hclaimAt).1 (lineOfAdvices_singleton.1 hfound)
      · exact fun h => ⟨_, lineOfAdvices_singleton.2 ((lineOfAdvice_first hclaimAt).2 h), rfl⟩
    have hstates := reconcileRemittanceLine_states hrow hshort invoice evidence
    rw [← hpage, ← hstates]
    constructor
    · rintro ⟨id', record', hid', hget', hpage', r, hr, htotal⟩
      cases hid.symm.trans hid'
      cases hget.symm.trans hget'
      exact ⟨hpage', r, hr, htotal.trans hamount⟩
    · rintro ⟨hpage', r, hr, htotal⟩
      exact ⟨id, record, hid, hget, hpage', r, hr, htotal.trans hamount.symm⟩

end

/-! ## An advice with a reprinted line -/

/-- A tenant of the repository's default settings whose store refuses an open claim. -/
def oneTenant : Tenant where
  mayWrite := fun _ _ => true
  documents := fun documentId => some ⟨documentId, 1, "remittance.pdf", false, some ["page".toList]⟩
  scannedClean := fun _ => true
  arrival := fun _ => none
  settings := fun _ => ⟨500, 50, 30⟩
  floor := 1 / 2
  debtorOf := fun _ => none
  refusal := Store.uniqueClaim fun _ => none

/-- One invoice on three lines with no payment reference: paid in full, then twice short, the first of them
printed as the code itself would number it. -/
def reprintedAdvice : RemittanceAdvice :=
  { payer_name := none, payment_reference := none, payment_date := none
    lines := [
      ⟨some "INV#1", some "$100.00", some "$100.00", none, none⟩,
      ⟨some "INV", none, none, some "$50.00", none⟩,
      ⟨some "INV", none, none, some "$60.00", none⟩] }

/-- The line loop over `reprintedAdvice`, from an empty store and with every call answered. -/
def reprintedRun : Except Failure LineLoop × Nat × Store :=
  lineLoop asciiCase oneTenant (fun _ => .error "unread".toList) ⟨1, 1⟩ ⟨.remittance_advice, reprintedAdvice⟩ none 3
    reliable 0 {}

/-- The case that the second line opens is explained by the first, which is paid in full. -/
theorem reprinted_line_misread :
    reprintedRun.1.map (fun acc => acc.lines.map fun result => (result.index, result.outcome, result.deductionId)) =
      .ok [(0, .not_short_paid, none), (1, .opened, some 1), (2, .opened, some 2)] ∧
    (remittanceLineOfCase asciiCase reprintedRun.2.2 1 [reprintedAdvice]).map (·.map (·.map (·.2))) =
      .ok (some (some 0)) := by
  decide +kernel

theorem reprintedRun_ok : ∃ acc m s, reprintedRun = (.ok acc, m, s) ∧ ∃ result ∈ acc.lines,
    result.index = 2 ∧ result.outcome = .opened := by
  have hlines : reprintedRun.1.map (fun acc => acc.lines.map fun result => (result.index, result.outcome)) =
      .ok [(0, .not_short_paid), (1, .opened), (2, .opened)] := by decide +kernel
  rcases hrun : reprintedRun with ⟨r, m, s⟩
  rw [hrun] at hlines
  cases r with
  | error e => cases hlines
  | ok acc =>
    have hmem : (2, RemittanceLineOutcome.opened) ∈ acc.lines.map fun result => (result.index, result.outcome) := by
      rw [show acc.lines.map (fun result => (result.index, result.outcome)) = _ from Except.ok.inj hlines]
      decide
    obtain ⟨result, hresult, heq⟩ := List.mem_map.1 hmem
    exact ⟨acc, m, s, rfl, result, hresult, congrArg (·.1) heq, congrArg (·.2) heq⟩

theorem reprinted_last_line_explained : ∃ s id record, s.getCase id = some record ∧
    remittanceLineOfCase asciiCase s id [reprintedAdvice] = .ok (some (some (reprintedAdvice, 2))) ∧
    ∃ r, reconcileRemittanceLine asciiCase (some (reprintedAdvice, 2)) none [] = .ok r ∧
      r.claimedTotalCents = record.deductionAmountCents := by
  obtain ⟨acc, m, s, hrun, result, hresult, hindex, hopened⟩ := reprintedRun_ok
  have hfirst : FirstOfItsClaim asciiCase reprintedAdvice result.index := by
    rw [hindex]
    unfold FirstOfItsClaim
    decide
  have hrange : InSafeRange asciiCase reprintedAdvice.lines result.index := by
    rw [hindex]
    rintro row printed gross net hrow - - hgross -
    cases hrow
    cases hgross
  obtain ⟨id, record, -, hget, hpage, hr⟩ := (opened_line_explained_iff hrun (Store.Extends.refl s) hresult
    (.inl hopened) none []).2 ⟨hfirst, hrange⟩
  rw [hindex] at hpage hr
  exact ⟨s, id, record, hget, hpage, hr⟩

end Recouple.Pipeline
