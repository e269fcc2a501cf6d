import Recouple.Pipeline.LineTurns

/-!
# The lines of one advice and the cases it opens

`openCasesFromRemittance` keeps the cases an advice opens apart from its own later lines: no match on the claim
id, the shared claim id or the invoice is one of them (`openedHere`). The refusal of `openCase` is not asked
whose case it names, and it is by the claim id that the line builds. So a line is merged into a case of its own
advice exactly where two of the lines that may open a case build claim ids that fold alike, and a reading whose
calls all answer gives no line an outcome exactly where some gross less net is out of range, or a line over the
floor is ambiguous in the store it is read into (`own_cases_apart_iff`).
-/

namespace Recouple.Pipeline
open Js FirstSeen Extraction Calls KeyedFold

/-! ## What is asked -/

section
variable (T : CaseTables)

/-- The two lines print one invoice, as invoices are compared, and the same gross and the same net. -/
def SameInvoiceColumns (advice : RemittanceAdvice) (i j : Nat) : Prop :=
  ∃ row other a b, advice.lines[i]? = some row ∧ advice.lines[j]? = some other ∧
    printedIdentifier row.invoice_number = some a ∧ printedIdentifier other.invoice_number = some b ∧
    identifierMatchKey T a = identifierMatchKey T b ∧
    printedMoneyCents T row.gross_amount = printedMoneyCents T other.gross_amount ∧
    printedMoneyCents T row.net_amount = printedMoneyCents T other.net_amount

/-- The line is priced at gross less net. -/
def PricedByColumns (shortPays : List ShortPay) (i : Nat) : Prop :=
  ∃ amountCents, shortPays[i]? = some (.cents amountCents .gross_minus_net)

/-- No two lines of one invoice with one gross and one net are priced at gross less net. -/
def PricedOnce (advice : RemittanceAdvice) (shortPays : List ShortPay) : Prop :=
  ∀ i j, i ≠ j → SameInvoiceColumns T advice i j → ¬ (PricedByColumns shortPays i ∧ PricedByColumns shortPays j)

/-- No line is merged into a case that another line of the reading opened. -/
def OwnCasesApart (lines : List RemittanceLineResult) : Prop :=
  ∀ result ∈ lines, ∀ own ∈ lines, own.Opened → result.outcome = .merged → result.deductionId ≠ own.deductionId

/-- The line has a short-pay and prints its invoice. -/
def MayOpen (advice : RemittanceAdvice) (shortPays : List ShortPay) (i : Nat) : Prop :=
  ∃ amountCents basis, shortPays[i]? = some (.cents amountCents basis) ∧ 0 < amountCents.val ∧
    (invoiceAt advice.lines i).isSome

/-- Where a line is priced at gross less net, and no other of its invoice repeats the two, the difference is in the
safe range. -/
def PricesFit (advice : RemittanceAdvice) : Prop :=
  ∀ i row gross net, advice.lines[i]? = some row → printsOwnDeduction row = false →
    quietMoney T row.gross_amount = some gross → quietMoney T row.net_amount = some net → ¬ PipelineSeveral T advice i →
      -maxSafe ≤ gross.val - net.val ∧ gross.val - net.val ≤ maxSafe

/-- Two lines that may open a case build claim ids that fold alike. -/
def ClaimsCollide (advice : RemittanceAdvice) (shortPays : List ShortPay) : Prop :=
  ∃ i j a b, i ≠ j ∧ MayOpen advice shortPays i ∧ MayOpen advice shortPays j ∧ claimIdAt T advice i = some a ∧
    claimIdAt T advice j = some b ∧ identifierMatchKey T a = identifierMatchKey T b

end

/-! ## The prices -/

section
variable {T : CaseTables} {advice : RemittanceAdvice} {shortPays : List ShortPay} {i j : Nat}

/-- A deduction that the line prints is its price. -/
theorem shortPayOnLine_own {row : RemittanceLine} {c : Cents} (hown : printsOwnDeduction row = true) :
    shortPayOnLine T row ≠ .ok (.cents c .gross_minus_net) := by
  unfold shortPayOnLine
  rw [if_pos hown]
  split
  · rintro ⟨⟩
  · rintro ⟨⟩

theorem subCents_returns {gross net : Cents} :
    (∃ c, subCents gross net = .ok c) ↔ -maxSafe ≤ gross.val - net.val ∧ gross.val - net.val ≤ maxSafe := by
  constructor
  · rintro ⟨c, hc⟩
    rw [← cents_toDoubleInt_ok.1 hc]
    exact ⟨c.lower, c.upper⟩
  · rintro ⟨hlower, hupper⟩
    exact ⟨⟨_, hlower, hupper⟩, cents_toDoubleInt_ok.2 rfl⟩

/-- Only a subtraction whose difference is out of range leaves a line without its short-pay. -/
theorem shortPayOnLine_returns {row : RemittanceLine} :
    (∃ pay, shortPayOnLine T row = .ok pay) ↔ ∀ gross net, printsOwnDeduction row = false →
      quietMoney T row.gross_amount = some gross → quietMoney T row.net_amount = some net →
        -maxSafe ≤ gross.val - net.val ∧ gross.val - net.val ≤ maxSafe := by
  unfold shortPayOnLine
  by_cases hown : printsOwnDeduction row = true
  · rw [if_pos hown]
    refine iff_of_true ?_ fun gross net hnot => absurd (hown.symm.trans hnot) Bool.true_eq_false.mp
    split
    · exact ⟨_, rfl⟩
    · exact ⟨_, rfl⟩
  rw [if_neg hown]
  rw [Bool.not_eq_true] at hown
  dsimp only
  split
  · -- no gross or no net is printed, so none reads
    rename_i hblank
    refine iff_of_true ⟨_, rfl⟩ fun gross net _ hgross hnet => ?_
    rw [Bool.or_eq_true, Bool.not_eq_true', Bool.not_eq_true'] at hblank
    rcases hblank with hblank | hblank
    · cases hgross.symm.trans (quietMoney_of_not_printed hblank)
    · cases hnet.symm.trans (quietMoney_of_not_printed hblank)
  · rw [quietMoney_eq, quietMoney_eq]
    split
    · rename_i gross net hgross hnet
      constructor
      · rintro ⟨pay, hpay⟩ gross' net' - hgross' hnet'
        cases hgross.symm.trans hgross'
        cases hnet.symm.trans hnet'
        obtain ⟨c, hc, -⟩ := map_ok.1 hpay
        exact subCents_returns.1 ⟨c, hc⟩
      · intro hfits
        obtain ⟨c, hc⟩ := subCents_returns.2 (hfits gross net hown hgross hnet)
        exact ⟨_, map_ok.2 ⟨c, hc, rfl⟩⟩
    · rename_i hnot
      exact iff_of_true ⟨_, rfl⟩ fun gross net _ hgross hnet => (hnot gross net hgross hnet).elim

/-- **Every line has its short-pay exactly if the prices fit.** -/
theorem adviceShortPays_returns : (∃ shortPays, adviceShortPays T advice = .ok shortPays) ↔ PricesFit T advice := by
  have hshares : ∀ {i}, ((lineClaimIds T advice.lines (printedIdentifier advice.payment_reference))[i]?.join.any
      (·.sharesGrossAndNet)) = true ↔ PipelineSeveral T advice i := by
    intro i
    rw [Option.any_eq_true]
    constructor
    · rintro ⟨key, hkey, hshares⟩
      exact ⟨key, Option.join_eq_some_iff.1 hkey, hshares⟩
    · rintro ⟨key, hkey, hshares⟩
      exact ⟨key, Option.join_eq_some_iff.2 hkey, hshares⟩
  constructor
  · rintro ⟨shortPays, hpays⟩ i row gross net hrow hown hgross hnet hseveral
    obtain ⟨pay, -, hpay⟩ := KeyedFold.exists_of_mem_left (mapM_forall₂ hpays) (List.mk_mem_zipIdx_iff_getElem?.2 hrow)
    dsimp only at hpay
    rw [if_neg fun h => hseveral (hshares.1 (Bool.and_eq_true_iff.1 h).1)] at hpay
    exact shortPayOnLine_returns.1 ⟨pay, hpay⟩ gross net hown hgross hnet
  · intro hfits
    refine mapM_returns ?_
    rintro ⟨row, i⟩ hentry
    have hrow := List.mk_mem_zipIdx_iff_getElem?.1 hentry
    dsimp only
    split
    · exact ⟨_, rfl⟩
    · rename_i hnot
      refine shortPayOnLine_returns.2 fun gross net hown hgross hnet => hfits i row gross net hrow hown hgross hnet ?_
      intro hseveral
      refine hnot (Bool.and_eq_true_iff.2 ⟨hshares.2 hseveral, ?_⟩)
      rw [hown]
      rfl

/-- A line that is priced at gross less net prints both, and shares them with no other line of its invoice. -/
theorem pricedByColumns_reads (hpays : adviceShortPays T advice = .ok shortPays) (h : PricedByColumns shortPays i) :
    ∃ row gross net, advice.lines[i]? = some row ∧ quietMoney T row.gross_amount = some gross ∧
      quietMoney T row.net_amount = some net ∧ ¬ PipelineSeveral T advice i := by
  obtain ⟨amountCents, hpay⟩ := h
  have hall := mapM_forall₂ hpays
  obtain ⟨hlt, hget⟩ := List.getElem?_eq_some_iff.1 hpay
  have hlt' : i < advice.lines.zipIdx.length := by rw [hall.length_eq]; exact hlt
  have h := hall.get hlt' hlt
  have hlines : i < advice.lines.length := by rwa [List.length_zipIdx] at hlt'
  have hentry : advice.lines.zipIdx.get ⟨i, hlt'⟩ = (advice.lines[i], i) := by
    rw [List.get_eq_getElem, List.getElem_zipIdx, Nat.zero_add]
  rw [hentry, List.get_eq_getElem, hget] at h
  dsimp only at h
  split at h
  · cases h
  · rename_i hshared
    rcases shortPayOnLine_cents h with ⟨hown, -⟩ | ⟨hown, -, gross, net, hgross, hnet, -⟩
    · exact absurd h (shortPayOnLine_own hown)
    · refine ⟨_, gross, net, List.getElem?_eq_getElem hlines, hgross, hnet, ?_⟩
      rintro ⟨key, hkey, hshares⟩
      refine hshared ?_
      rw [hkey, hown]
      simpa using hshares

/-- **No shortfall of an invoice is priced twice.** -/
theorem priced_once (hpays : adviceShortPays T advice = .ok shortPays) : PricedOnce T advice shortPays := by
  rintro i j hne ⟨row, other, a, b, hi, hj, ha, hb, hfold, hgross, hnet⟩ ⟨hpriced, -⟩
  obtain ⟨row', gross, net, hrow, hg, hn, hseveral⟩ := pricedByColumns_reads hpays hpriced
  cases hi.symm.trans hrow
  refine hseveral (pipelineSeveral_iff.2 ⟨j, ?_⟩)
  obtain ⟨key, hkey⟩ : ∃ key, lineKey T advice.lines (printedIdentifier advice.payment_reference) i row = some key := by
    rw [lineKey, ha]
    exact ⟨_, rfl⟩
  obtain ⟨invoice, hinvoice, hgroup⟩ := lineKey_group T hkey
  cases ha.symm.trans hinvoice
  refine ⟨key, row, (lineClaimIds_eq_some T).2 ⟨row, hi, hkey⟩, hi, ?_, hne.symm, ?_⟩
  · rw [hgroup, mem_groupOf]
    exact ⟨b, by rw [invoiceAt, hj, Option.bind_some, hb], hfold.symm⟩
  · rw [sameColumns_iff hj]
    simp only [quietMoney_eq] at hgross hnet
    exact ⟨gross, net, hg, hn, hgross ▸ hg, hnet ▸ hn⟩

end

/-! ## The cases of a reading -/

/-- What the loop knows of the cases it has opened: each is only for its own line's claim, and one that a line was
merged into shows two claims that collide. -/
structure OwnCases (T : CaseTables) (advice : RemittanceAdvice) (shortPays : List ShortPay)
    (done : List (RemittanceLine × Nat)) (acc : LineLoop) (s : Store) : Prop where
  owned : s.Owned
  indices : acc.lines.map (·.index) = done.map (·.2)
  here : ∀ id, id ∈ acc.openedHere ↔ ∃ own ∈ acc.lines, own.Opened ∧ own.deductionId = some id
  opened : ∀ own ∈ acc.lines, own.Opened → ∃ id claim, own.deductionId = some id ∧
    MayOpen advice shortPays own.index ∧ claimIdAt T advice own.index = some claim ∧ OnlyFor claim s id
  merged : ∀ result ∈ acc.lines, result.outcome = .merged → ∃ id, result.deductionId = some id ∧ s.Has id
  apart : OwnCasesApart acc.lines ∨ ClaimsCollide T advice shortPays

/-- What the loop knows besides where `openCase` resolves identity, the arrival is known and the store was empty:
every case is its own, and no two cases carry one claim id. -/
structure AllOwn (T : CaseTables) (advice : RemittanceAdvice) (o : Opening) (done : List (RemittanceLine × Nat))
    (acc : LineLoop) (s : Store) : Prop where
  all : ∀ id, s.Has id → id ∈ acc.openedHere
  settled : ∀ entry ∈ done, ∀ line, overFloorLine T o entry = some line →
    ∃ result ∈ acc.lines, result.index = entry.2 ∧ (result.Opened ∨ result.outcome = .merged)
  carried : ∀ own ∈ acc.lines, own.Opened → ∀ id claim, own.deductionId = some id →
    claimIdAt T advice own.index = some claim → Carries T o.document.orgId claim s id
  distinct : ∀ own ∈ acc.lines, ∀ other ∈ acc.lines, own.Opened → other.Opened → own.index ≠ other.index →
    ∀ a b, claimIdAt T advice own.index = some a → claimIdAt T advice other.index = some b →
      identifierMatchKey T a ≠ identifierMatchKey T b
  alone : ∀ claimId, AtMostOne T o.document.orgId claimId s

section
variable {T : CaseTables} {tenant : Tenant} {o : Opening} {advice : RemittanceAdvice} {shortPays : List ShortPay}
variable {done : List (RemittanceLine × Nat)} {entry : RemittanceLine × Nat} {acc acc' : LineLoop} {s₀ s : Store}

/-- A line over the floor may open a case, under the claim id of its row. -/
theorem line_of_overFloor {line : ShortLine} (hkeys : o.keys = lineClaimIds T advice.lines (printedIdentifier advice.payment_reference))
    (hentry : entry ∈ advice.lines.zipIdx) (hline : overFloorLine T o entry = some line) :
    MayOpen advice o.shortPays entry.2 ∧ claimIdAt T advice entry.2 = some (o.claimIdOf line) := by
  obtain ⟨row, index⟩ := entry
  obtain ⟨hpay, hinvoice, hindex, -, -, hpositive, -⟩ := overFloorLine_eq_some.1 hline
  have hrow : advice.lines[index]? = some row := List.mk_mem_zipIdx_iff_getElem?.1 hentry
  refine ⟨⟨_, _, hpay, hpositive, ?_⟩, claimIdAt_of_printed hrow hinvoice hindex o hkeys⟩
  rw [invoiceAt, hrow, Option.bind_some, hinvoice]
  rfl

/-- A turn keeps what the loop knows. -/
theorem OwnCases.turn (h : OwnCases T advice o.shortPays done acc s₀) (hturn : TurnFrom T tenant o acc entry s₀ acc' s)
    (hkeys : o.keys = lineClaimIds T advice.lines (printedIdentifier advice.payment_reference))
    (hentry : entry ∈ advice.lines.zipIdx) (hnew : entry.2 ∉ done.map (·.2)) :
    OwnCases T advice o.shortPays (done ++ [entry]) acc' s := by
  obtain ⟨result, hlines, hindex, hcase⟩ := hturn
  have hmem : ∀ r, r ∈ acc'.lines ↔ r ∈ acc.lines ∨ r = result := fun r => by
    rw [hlines, List.mem_append, List.mem_singleton]
  have hindices : acc'.lines.map (·.index) = (done ++ [entry]).map (·.2) := by
    rw [hlines, List.map_append, List.map_append, h.indices, List.map_singleton, List.map_singleton, hindex]
  rcases hcase with ⟨line, hline, ⟨-, id, hid, ⟨hmerged, hsame, hinto⟩ | ⟨hopened, hfor⟩⟩, hhere⟩ |
    ⟨-, hnot, hmerged, hsame, hhere⟩
  · -- merged: where the case is the loop's own, its claim and the line's collide
    have hnot := not_opened_of_merged hmerged
    obtain ⟨hmay, hclaim⟩ := line_of_overFloor hkeys hentry hline
    refine ⟨hsame.owned h.owned, hindices, fun other => ?_, fun own hown hopened => ?_, fun r hr hm => ?_, ?_⟩
    · rw [hhere, h.here]
      constructor
      · rintro (⟨own, hown, hrest⟩ | ⟨hopened, -⟩)
        · exact ⟨own, (hmem own).2 (.inl hown), hrest⟩
        · exact absurd hopened hnot
      · rintro ⟨own, hown, hopened, hrest⟩
        rcases (hmem own).1 hown with hown | rfl
        · exact .inl ⟨own, hown, hopened, hrest⟩
        · exact absurd hopened hnot
    · rcases (hmem own).1 hown with hown | rfl
      · obtain ⟨id', claim, hid', hmay', hclaim', honly⟩ := h.opened own hown hopened
        exact ⟨id', claim, hid', hmay', hclaim', hsame.onlyFor honly⟩
      · exact absurd hopened hnot
    · rcases (hmem r).1 hr with hr | rfl
      · obtain ⟨id', hid', hhas'⟩ := h.merged r hr hm
        exact ⟨id', hid', hsame.has.2 hhas'⟩
      · exact ⟨id, hid, hsame.has.2 hinto.has⟩
    · by_cases hhereId : id ∈ acc.openedHere
      · obtain ⟨own, hown, hopened, hownId⟩ := (h.here id).1 hhereId
        obtain ⟨id', claim, hid', hmay', hclaim', honly⟩ := h.opened own hown hopened
        cases hownId.symm.trans hid'
        refine .inr ⟨own.index, entry.2, claim, _, ?_, hmay', hmay, hclaim', hclaim, honly.standsFor (hinto.stands hhereId)⟩
        intro heq
        refine hnew (heq ▸ ?_)
        rw [← h.indices]
        exact List.mem_map_of_mem hown
      · refine h.apart.imp_left fun hapart r hr own hown' hopened hm => ?_
        rcases (hmem own).1 hown' with hown' | rfl
        · rcases (hmem r).1 hr with hr | rfl
          · exact hapart r hr own hown' hopened hm
          · rintro heq
            exact hhereId ((h.here id).2 ⟨own, hown', hopened, heq.symm.trans hid⟩)
        · exact absurd hopened hnot
  · -- opened: the case is new, so nothing was merged into it
    obtain ⟨hmay, hclaim⟩ := line_of_overFloor hkeys hentry hline
    have hopens := hfor.opens
    refine ⟨hopens.owned h.owned, hindices, fun other => ?_, fun own hown hopened' => ?_, fun r hr hm => ?_, ?_⟩
    · rw [hhere, h.here]
      constructor
      · rintro (⟨own, hown, hrest⟩ | hrest)
        · exact ⟨own, (hmem own).2 (.inl hown), hrest⟩
        · exact ⟨result, (hmem result).2 (.inr rfl), hrest⟩
      · rintro ⟨own, hown, hrest⟩
        rcases (hmem own).1 hown with hown | rfl
        · exact .inl ⟨own, hown, hrest⟩
        · exact .inr hrest
    · rcases (hmem own).1 hown with hown | rfl
      · obtain ⟨id', claim, hid', hmay', hclaim', honly⟩ := h.opened own hown hopened'
        exact ⟨id', claim, hid', hmay', hclaim', hopens.onlyFor_other honly⟩
      · rw [hindex]
        exact ⟨id, _, hid, hmay, hclaim, hopens.onlyFor h.owned⟩
    · rcases (hmem r).1 hr with hr | rfl
      · obtain ⟨id', hid', hhas'⟩ := h.merged r hr hm
        exact ⟨id', hid', hopens.has.2 (.inl hhas')⟩
      · exact absurd hopened (not_opened_of_merged hm)
    · refine h.apart.imp_left fun hapart r hr own hown hopened' hm => ?_
      rcases (hmem r).1 hr with hr | rfl
      · rcases (hmem own).1 hown with hown | rfl
        · exact hapart r hr own hown hopened' hm
        · obtain ⟨id', hid', hhas'⟩ := h.merged r hr hm
          rintro heq
          cases (hid'.symm.trans heq).trans hid
          exact hopens.unheld hhas'
      · exact absurd hopened (not_opened_of_merged hm)
  · -- no case
    have hold : ∀ {own : RemittanceLineResult}, own ∈ acc'.lines → own.Opened ∨ own.outcome = .merged → own ∈ acc.lines := by
      intro own hown hwhat
      rcases (hmem own).1 hown with hown | rfl
      · exact hown
      · exact (hwhat.elim hnot hmerged).elim
    refine ⟨hsame.owned h.owned, hindices, fun other => ?_, fun own hown hopened => ?_, fun r hr hm => ?_, ?_⟩
    · rw [hhere, h.here]
      constructor
      · rintro ⟨own, hown, hrest⟩
        exact ⟨own, (hmem own).2 (.inl hown), hrest⟩
      · rintro ⟨own, hown, hopened, hrest⟩
        exact ⟨own, hold hown (.inl hopened), hopened, hrest⟩
    · obtain ⟨id, claim, hid, hmay, hclaim, honly⟩ := h.opened own (hold hown (.inl hopened)) hopened
      exact ⟨id, claim, hid, hmay, hclaim, hsame.onlyFor honly⟩
    · obtain ⟨id, hid, hhas⟩ := h.merged r (hold hr (.inr hm)) hm
      exact ⟨id, hid, hsame.has.2 hhas⟩
    · exact h.apart.imp_left fun hapart r hr own hown hopened hm =>
        hapart r (hold hr (.inr hm)) own (hold hown (.inl hopened)) hopened hm

theorem AllOwn.turn (hr : Resolves T tenant) (harrival : tenant.arrival o.document.documentId ≠ none)
    (h : AllOwn T advice o done acc s₀) (hown : OwnCases T advice o.shortPays done acc s₀)
    (hturn : TurnFrom T tenant o acc entry s₀ acc' s)
    (hkeys : o.keys = lineClaimIds T advice.lines (printedIdentifier advice.payment_reference))
    (hentry : entry ∈ advice.lines.zipIdx) : AllOwn T advice o (done ++ [entry]) acc' s := by
  obtain ⟨result, hlines, hindex, hcase⟩ := hturn
  have hmem : ∀ r, r ∈ acc'.lines ↔ r ∈ acc.lines ∨ r = result := fun r => by
    rw [hlines, List.mem_append, List.mem_singleton]
  have hsettled : (∀ line, overFloorLine T o entry = some line → result.Opened ∨ result.outcome = .merged) →
      ∀ x ∈ done ++ [entry], ∀ line, overFloorLine T o x = some line →
        ∃ result ∈ acc'.lines, result.index = x.2 ∧ (result.Opened ∨ result.outcome = .merged) := by
    intro hresult x hx line hline
    rcases List.mem_append.1 hx with hx | hx
    · obtain ⟨r, hr', hrest⟩ := h.settled x hx line hline
      exact ⟨r, (hmem r).2 (.inl hr'), hrest⟩
    · cases List.mem_singleton.1 hx
      exact ⟨result, (hmem result).2 (.inr rfl), hindex, hresult line hline⟩
  -- a turn that opens nothing
  have hquiet : s₀.SameCases s → ¬ result.Opened → (∀ id, id ∈ acc.openedHere → id ∈ acc'.openedHere) →
      (∀ line, overFloorLine T o entry = some line → result.Opened ∨ result.outcome = .merged) →
      AllOwn T advice o (done ++ [entry]) acc' s := by
    intro hsame hnot hhere hresult
    have hold : ∀ {own : RemittanceLineResult}, own ∈ acc'.lines → own.Opened → own ∈ acc.lines := by
      intro own hown hopened
      rcases (hmem own).1 hown with hown | rfl
      · exact hown
      · exact absurd hopened hnot
    refine ⟨fun id hid => hhere id (h.all id (hsame.has.1 hid)), hsettled hresult, ?_, ?_, ?_⟩
    · exact fun own hown hopened id claim hid hclaim =>
        hsame.carries.2 (h.carried own (hold hown hopened) hopened id claim hid hclaim)
    · exact fun own hown other hother hopened hopened' =>
        h.distinct own (hold hown hopened) other (hold hother hopened') hopened hopened'
    · exact fun claimId a b ha hb => h.alone claimId a b (hsame.carries.1 ha) (hsame.carries.1 hb)
  rcases hcase with ⟨line, hline, ⟨-, id, hid, ⟨hmerged, hsame, -⟩ | ⟨hopened, hfor⟩⟩, hhere⟩ |
    ⟨hnone, hnot, -, hsame, hhere⟩
  · exact hquiet hsame (not_opened_of_merged hmerged) (fun id hid => (hhere id).2 (.inl hid)) fun _ _ => .inr hmerged
  · obtain ⟨-, hclaim⟩ := line_of_overFloor hkeys hentry hline
    have hcarries := hfor.recorded hr harrival
    -- an earlier case whose claim folds alike would have carried the line's
    have hapart : ∀ own ∈ acc.lines, own.Opened → ∀ a, claimIdAt T advice own.index = some a →
        identifierMatchKey T a ≠ identifierMatchKey T (o.claimIdOf line) := by
      intro own hmem' hopened' a ha heq
      obtain ⟨id', claim, hid', -, hclaim', -⟩ := hown.opened own hmem' hopened'
      cases ha.symm.trans hclaim'
      obtain ⟨row, hrow, horg, hkind, hkey, hrowId⟩ := h.carried own hmem' hopened' id' a hid' ha
      exact hfor.first hr id' ⟨row, hrow, horg, hkind, hkey.trans heq, hrowId⟩
    refine ⟨fun other hother => ?_, hsettled fun _ _ => .inl hopened, ?_, ?_, fun claimId => hfor.alone hr (h.alone claimId)⟩
    · rcases hfor.opens.has.1 hother with hother | rfl
      · exact (hhere other).2 (.inl (h.all other hother))
      · exact (hhere other).2 (.inr ⟨hopened, hid⟩)
    · intro own hown' hopened' id' claim hid' hclaim'
      rcases (hmem own).1 hown' with hown' | rfl
      · exact (h.carried own hown' hopened' id' claim hid' hclaim').kept hfor.opens.kept
      · cases hid.symm.trans hid'
        rw [hindex, hclaim] at hclaim'
        cases hclaim'
        exact hcarries
    · intro own hown' other hother hopened' hopened'' hne a b ha hb
      rcases (hmem own).1 hown' with hown' | rfl
      · rcases (hmem other).1 hother with hother | rfl
        · exact h.distinct own hown' other hother hopened' hopened'' hne a b ha hb
        · rw [hindex, hclaim] at hb
          cases hb
          exact hapart own hown' hopened' a ha
      · rcases (hmem other).1 hother with hother | rfl
        · rw [hindex, hclaim] at ha
          cases ha
          exact (hapart other hother hopened'' b hb).symm
        · exact absurd rfl hne
  · refine hquiet hsame hnot (fun id hid => hhere ▸ hid) fun line hline => ?_
    cases hnone.symm.trans hline

/-! ## A whole reading -/

theorem OwnCases.nil (hs : s.Owned) : OwnCases T advice o.shortPays [] {} s :=
  ⟨hs, rfl, by simp, by simp, by simp, .inl (by simp [OwnCasesApart])⟩

theorem AllOwn.nil : AllOwn T advice o [] {} ({} : Store) where
  all _ hid := absurd hid List.not_mem_nil
  settled _ hentry := absurd hentry List.not_mem_nil
  carried _ hown := absurd hown List.not_mem_nil
  distinct _ hown := absurd hown List.not_mem_nil
  alone := by
    rintro claimId a b ⟨row, hrow, -⟩
    exact absurd hrow List.not_mem_nil

theorem OwnCases.all_indices (h : OwnCases T advice shortPays advice.lines.zipIdx acc s) :
    acc.lines.map (·.index) = List.range advice.lines.length := by
  rw [h.indices, List.zipIdx_map_snd, List.range_eq_range']

end

/-- A tenant with no floor, whose documents were uploaded and whose store resolves identity. -/
def floorless (T : CaseTables) : Tenant where
  mayWrite := fun _ _ => true
  documents := fun _ => none
  scannedClean := fun _ => true
  arrival := fun _ => some .web_upload
  settings := fun _ => ⟨0, 0, 30⟩
  floor := 0
  debtorOf := fun _ => none
  refusal := Store.resolvedClaim T fun _ => none

theorem floorless_resolves (T : CaseTables) : Resolves T (floorless T) := rfl

/-- With no floor every line that may open a case is over it. -/
theorem overFloorLine_floorless {T : CaseTables} {o : Opening} {advice : RemittanceAdvice} {i : Nat}
    (hzero : o.settings.toleranceCents = 0 ∧ o.settings.toleranceBps = 0) (hi : MayOpen advice o.shortPays i) :
    ∃ entry ∈ advice.lines.zipIdx, entry.2 = i ∧ ∃ line, overFloorLine T o entry = some line := by
  obtain ⟨amountCents, basis, hpay, hpositive, hinvoice⟩ := hi
  obtain ⟨invoice, hinvoice⟩ := Option.isSome_iff_exists.1 hinvoice
  obtain ⟨row, hrow, hprinted⟩ := Option.bind_eq_some_iff.1 hinvoice
  refine ⟨(row, i), List.mk_mem_zipIdx_iff_getElem?.2 hrow, rfl, ⟨i, invoice, printedIdentifier row.reason_code,
    printedMoneyCents T row.gross_amount, amountCents, basis⟩, ?_⟩
  refine overFloorLine_eq_some.2 ⟨hpay, hprinted, rfl, rfl, rfl, hpositive, ?_⟩
  unfold clearsRemittanceTolerance
  rw [hzero.1, hzero.2, Bool.and_eq_true, decide_eq_true_eq]
  refine ⟨Int.le_of_lt hpositive, ?_⟩
  cases printedMoneyCents T row.gross_amount with
  | none => rfl
  | some gross =>
    rw [Option.all_some, decide_eq_true_eq]
    show gross.val * ((0 : Nat) : Int) ≤ amountCents.val * 10000
    omega

/-- Where every case of the store is the loop's own, two claims that collide leave a line merged into one. -/
theorem not_apart_of_collide {T : CaseTables} {o : Opening} {advice : RemittanceAdvice} {acc : LineLoop} {s : Store}
    (hown : OwnCases T advice o.shortPays advice.lines.zipIdx acc s) (hall : AllOwn T advice o advice.lines.zipIdx acc s)
    (hzero : o.settings.toleranceCents = 0 ∧ o.settings.toleranceBps = 0) (hcollide : ClaimsCollide T advice o.shortPays) :
    ¬ OwnCasesApart acc.lines := by
  obtain ⟨i, j, a, b, hne, hi, hj, ha, hb, hkey⟩ := hcollide
  intro hapart
  have hopened : ∀ {k}, MayOpen advice o.shortPays k → ∃ result ∈ acc.lines, result.index = k ∧ result.Opened := by
    intro k hk
    obtain ⟨entry, hentry, rfl, line, hline⟩ := overFloorLine_floorless hzero hk
    obtain ⟨result, hresult, hindex, hopened | hmerged⟩ := hall.settled entry hentry line hline
    · exact ⟨result, hresult, hindex, hopened⟩
    · -- it was merged into a case of the store, so into one of the loop's
      obtain ⟨id, hid, hhas⟩ := hown.merged result hresult hmerged
      obtain ⟨own, hmem, hopened, hownId⟩ := (hown.here id).1 (hall.all id hhas)
      exact absurd (hid.trans hownId.symm) (hapart result hresult own hmem hopened hmerged)
  obtain ⟨first, hfirst, rfl, hopenedFirst⟩ := hopened hi
  obtain ⟨second, hsecond, rfl, hopenedSecond⟩ := hopened hj
  exact hall.distinct first hfirst second hsecond hopenedFirst hopenedSecond hne a b ha hb hkey

/-- A reading into the store returns if every call answers. One that returns, whatever calls failed, prices no two lines
of one invoice, gross and net by them, has one result for each line in page order, and merges no line into a case that
another line of it opened. -/
structure ReadApart (T : CaseTables) (tenant : Tenant) (parse : Text → Except Text Text) (document : CaseOpeningDocument)
    (reading : CaseOpeningReading) (confirmation : Option HoldConfirmation) (s : Store) : Prop where
  returns : ∀ n, ∃ read m s',
    openCasesFromRemittance T tenant parse document reading confirmation reliable n s = (.ok read, m, s')
  once : ∀ faults n m s' read,
    openCasesFromRemittance T tenant parse document reading confirmation faults n s = (.ok read, m, s') →
      (∃ shortPays, adviceShortPays T reading.advice = .ok shortPays ∧ PricedOnce T reading.advice shortPays) ∧
        read.lines.map (·.index) = List.range reading.advice.lines.length ∧ OwnCasesApart read.lines

section
variable {T : CaseTables} {tenant : Tenant} {parse : Text → Except Text Text} {document : CaseOpeningDocument}
variable {reading : CaseOpeningReading} {confirmation : Option HoldConfirmation} {s : Store} {shortPays : List ShortPay}

/-- What is said of the readings of an advice whose prices fit and whose claims do not collide. -/
theorem readApart_of_fits (hT : ∀ c, T.lower c ≠ []) (hstore : OneOfTheStores T tenant) (hsound : s.Sound)
    (hpays : adviceShortPays T reading.advice = .ok shortPays) (hapart : ¬ ClaimsCollide T reading.advice shortPays)
    (hno : Unambiguous T tenant (openingOf T tenant parse document reading confirmation shortPays) reading.advice s) :
    ReadApart T tenant parse document reading confirmation s := by
  have hs := Store.owned_of_sound hsound
  constructor
  · intro n
    have htriple : Triple reliable (fun t => t = s) _ _ _ := openCases_returns hT hstore hs hpays hno
    have hreturns := htriple n s rfl
    rcases hrun : openCasesFromRemittance T tenant parse document reading confirmation reliable n s with ⟨r, m, s'⟩
    rw [hrun] at hreturns
    cases r with
    | ok read => exact ⟨read, m, s', rfl⟩
    | error e => exact absurd rfl hreturns
  · intro faults n m s' read hrun
    have htriple := @openCases_own T tenant faults True parse document reading confirmation (fun t => t = s)
      (fun lines => lines.map (·.index) = List.range reading.advice.lines.length ∧ OwnCasesApart lines) (fun _ => trivial)
      (fun _ => trivial) fun shortPays' hpays' => by
        cases hpays.symm.trans hpays'
        let o := openingOf T tenant parse document reading confirmation shortPays
        refine ((lines_turn (K := OwnCases T reading.advice o.shortPays) hT hstore (fun _ => trivial) rfl
          (shortPays_length hpays) (fun _ _ _ h => h.owned) (fun _ _ _ _ _ _ _ _ _ _ _ _ _ => trivial) ?_).pre ?_).post ?_
        · exact fun done entry acc acc' s₀ s hentry hnew h _ hturn => h.turn hturn rfl hentry hnew
        · rintro s rfl
          exact OwnCases.nil hs
        · exact fun acc s h => ⟨h.all_indices, h.apart.resolve_right hapart⟩
    obtain ⟨-, hread⟩ := htriple.ok rfl hrun
    exact ⟨⟨shortPays, hpays, priced_once hpays⟩, hread⟩

/-- Into an empty store, with no floor, claims that collide are not read apart. -/
theorem not_readApart_of_collide {advice : RemittanceAdvice} (hT : ∀ c, T.lower c ≠ [])
    (hpays : adviceShortPays T advice = .ok shortPays) (hcollide : ClaimsCollide T advice shortPays) :
    ¬ ReadApart T (floorless T) (fun _ => .error []) ⟨1, 1⟩ ⟨.remittance_advice, advice⟩ none {} := by
  intro hread
  have htriple := @openCases_own T (floorless T) reliable False (fun _ => .error []) ⟨1, 1⟩ ⟨.remittance_advice, advice⟩
    none (fun s => s = {}) (fun lines => ¬ OwnCasesApart lines) (fun h => absurd rfl h)
    (fun h => by obtain ⟨e, he⟩ := h; cases hpays.symm.trans he) fun shortPays' hpays' => by
      cases hpays.symm.trans hpays'
      let o := openingOf T (floorless T) (fun _ => .error []) ⟨1, 1⟩ ⟨.remittance_advice, advice⟩ none shortPays
      refine ((lines_turn (K := fun done acc s => OwnCases T advice o.shortPays done acc s ∧ AllOwn T advice o done acc s) hT
        (.inl (floorless_resolves T)) (fun h => absurd rfl h) rfl (shortPays_length hpays) (fun _ _ _ h => h.1.owned)
        ?_ ?_).pre ?_).post ?_
      · intro done acc s₀ entry line h hentry hline _
        exact ambiguity_alone (.inl (floorless_resolves T)) (visible_of_overFloor hT rfl hentry hline)
          fun _ => h.2.alone _
      · rintro done entry acc acc' s₀ s hentry hnew ⟨hown, hall⟩ - hturn
        exact ⟨hown.turn hturn rfl hentry hnew, hall.turn (floorless_resolves T) (by rintro ⟨⟩) hown hturn rfl hentry⟩
      · rintro s rfl
        exact ⟨OwnCases.nil (Store.owned_of_sound sound_empty), AllOwn.nil⟩
      · exact fun acc s hs => not_apart_of_collide hs.1 hs.2 ⟨rfl, rfl⟩ hcollide
  obtain ⟨read, m, s', hrun⟩ := hread.returns 0
  exact (htriple.ok rfl hrun).2 (hread.once _ _ _ _ _ hrun).2.2

end

/-- **No shortfall is priced twice, every line has its one outcome and no line is merged into its own advice's case,
exactly if every difference the lines are priced at is in range and no two lines that may open a case build claim ids
that fold alike**: that of every reading into a store that no line over the floor is ambiguous in, and of no other
reading. -/
theorem own_cases_apart_iff (T : CaseTables) (hT : ∀ c, T.lower c ≠ []) (advice : RemittanceAdvice) :
    ((∀ tenant parse document docType confirmation s, OneOfTheStores T tenant → s.Sound →
        ReadUnambiguously T tenant parse document ⟨docType, advice⟩ confirmation s →
          ReadApart T tenant parse document ⟨docType, advice⟩ confirmation s) ↔
      PricesFit T advice ∧ ∀ shortPays, adviceShortPays T advice = .ok shortPays → ¬ ClaimsCollide T advice shortPays) ∧
    ∀ tenant parse document docType confirmation s, OneOfTheStores T tenant → s.Sound →
      ReadApart T tenant parse document ⟨docType, advice⟩ confirmation s →
        ReadUnambiguously T tenant parse document ⟨docType, advice⟩ confirmation s := by
  refine ⟨⟨fun hevery => ?_, ?_⟩, ?_⟩
  · have hread : ReadApart T (floorless T) (fun _ => .error []) ⟨1, 1⟩ ⟨.remittance_advice, advice⟩ none {} := by
      exact hevery _ _ _ _ _ _ (.inl (floorless_resolves T)) sound_empty readUnambiguously_empty
    refine ⟨adviceShortPays_returns.1 ?_, fun shortPays hpays hcollide => not_readApart_of_collide hT hpays hcollide hread⟩
    obtain ⟨read, m, s', hrun⟩ := hread.returns 0
    obtain ⟨⟨shortPays, hpays, -⟩, -⟩ := hread.once _ _ _ _ _ hrun
    exact ⟨shortPays, hpays⟩
  · rintro ⟨hfits, hcollide⟩ tenant parse document docType confirmation s hstore hsound hno
    obtain ⟨shortPays, hpays⟩ := adviceShortPays_returns.2 hfits
    exact readApart_of_fits hT hstore hsound hpays (hcollide shortPays hpays) (hno shortPays hpays)
  · intro tenant parse document docType confirmation s hstore hsound hread shortPays hpays
    by_contra hno
    obtain ⟨read, m, s', hrun⟩ := hread.returns 0
    exact (openCases_ambiguous hT hstore (Store.owned_of_sound hsound) hpays hno).ok rfl hrun

/-- Two lines of one invoice are told apart by their ordinals. -/
theorem respaced_claims_apart {shortPays : List ShortPay} : ¬ ClaimsCollide asciiCase respaced shortPays := by
  rintro ⟨i, j, a, b, hne, ⟨_, _, -, -, hi⟩, ⟨_, _, -, -, hj⟩, ha, hb, hkey⟩
  have hlt : ∀ {k}, (invoiceAt respaced.lines k).isSome → k = 0 ∨ k = 1 := by
    intro k hk
    by_contra hge
    have hnone : respaced.lines[k]? = none := List.getElem?_eq_none (by show 2 ≤ k; omega)
    rw [invoiceAt, hnone] at hk
    cases hk
  have hkeys : ∀ k claim, claimIdAt asciiCase respaced k = some claim →
      (claimIdAt asciiCase respaced k).map (identifierMatchKey asciiCase) = some (identifierMatchKey asciiCase claim) := by
    intro k claim h
    rw [h]
    rfl
  have hdiffer : (claimIdAt asciiCase respaced 0).map (identifierMatchKey asciiCase) ≠
      (claimIdAt asciiCase respaced 1).map (identifierMatchKey asciiCase) := by decide
  have hsame := (hkeys i a ha).trans ((congrArg some hkey).trans (hkeys j b hb).symm)
  rcases hlt hi with rfl | rfl
  · rcases hlt hj with rfl | rfl
    · exact hne rfl
    · exact hdiffer hsame
  · rcases hlt hj with rfl | rfl
    · exact hdiffer hsame.symm
    · exact hne rfl

theorem respaced_read_apart :
    ReadApart asciiCase resolvingTenant (fun _ => .error "unread") ⟨1, 1⟩ ⟨.remittance_advice, respaced⟩ none {} := by
  refine (own_cases_apart_iff asciiCase (fun c => List.cons_ne_nil _ _) respaced).1.2 ⟨?_, fun _ _ => respaced_claims_apart⟩
    _ _ _ _ _ _ (.inl rfl) sound_empty readUnambiguously_empty
  exact adviceShortPays_returns.1 ⟨_, rfl⟩

/-- A line numbered by the code reads like the invoice another line prints: its $50.00 is merged into the $40.00 case
that the other has just opened. -/
theorem numbered_line_merged_into_its_own :
    ¬ ReadApart asciiCase resolvingTenant (fun _ => .error "unread") ⟨1, 1⟩ ⟨.remittance_advice, numberedAdvice⟩ none {} := by
  intro hevery
  have hlines : (readAdvice resolvingTenant numberedAdvice 1 {}).1.map
      (fun read => read.lines.map fun result => (result.outcome, result.deductionId)) =
      .ok [(.opened, some 1), (.merged, some 1), (.opened, some 2)] := by decide +kernel
  rcases hrun : readAdvice resolvingTenant numberedAdvice 1 {} with ⟨r, m, s⟩
  rw [hrun] at hlines
  cases r with
  | error e => cases hlines
  | ok read =>
    have hapart := (hevery.once _ _ _ _ _ hrun).2.2
    have hread : read.lines.map (fun result => (result.outcome, result.deductionId)) = _ := Except.ok.inj hlines
    have hopened : (RemittanceLineOutcome.opened, some 1) ∈
        read.lines.map fun result => (result.outcome, result.deductionId) := by
      rw [hread]
      decide
    have hmerged : (RemittanceLineOutcome.merged, some 1) ∈
        read.lines.map fun result => (result.outcome, result.deductionId) := by
      rw [hread]
      decide
    obtain ⟨own, hown, hownIs⟩ := List.mem_map.1 hopened
    obtain ⟨result, hresult, hresultIs⟩ := List.mem_map.1 hmerged
    refine hapart result hresult own hown (.inl (congrArg (·.1) hownIs)) (congrArg (·.1) hresultIs) ?_
    exact (congrArg (·.2) hresultIs).trans (congrArg (·.2) hownIs).symm

end Recouple.Pipeline
