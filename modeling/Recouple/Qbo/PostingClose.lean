import Mathlib
import Recouple.Qbo.Posting

/-!
# The postings of a case close it

Every drafted entry is a pair of lines of one amount, so the lines a posting sends are pairs too
(`found_lines`, `settlement_lines`), and what an account moves by is read off the pairs.

* **`postings_close`**: over the found posting and the settlement posting together, and over a settlement posting
  that includes the found entry, the deductions receivable moves by nothing, the receivable by what was written
  off, downwards, the write-off account by the same upwards, and no other account moves. The two builders agree
  line for line wherever `entryLines` returns.
* **`whole_posting_refused`**: `entryLines` sums its two sides, `settlementLinesFrom` does not. A declined case of
  more than half the largest safe integer has computed lines that are never posted.
-/

namespace Recouple.Qbo
open Js KeyedFold Journal

/-- Debits less credits of an account. -/
def moved (account : Text) (lines : List PostingLine) : Int :=
  sideTotal .Debit (lines.filter fun line => line.accountId = account) -
    sideTotal .Credit (lines.filter fun line => line.accountId = account)

/-- A posting balances in exact cents. -/
def Balanced (lines : List PostingLine) : Prop := sideTotal .Debit lines = sideTotal .Credit lines

/-- The account a family's write-offs go to. -/
abbrev writeoffAccount (family : Option ReasonFamily) (map : LedgerAccountMap) : Text :=
  Journal.accountFor .writeoff_expense family map

/-- The three accounts of a case are pairwise distinct. -/
structure Distinct (family : Option ReasonFamily) (map : LedgerAccountMap) : Prop where
  receivables : map.arAccountId ≠ map.deductionsReceivableAccountId
  receivable_writeoff : map.arAccountId ≠ writeoffAccount family map
  deductions_writeoff : map.deductionsReceivableAccountId ≠ writeoffAccount family map

/-- The three accounts of a case are QuickBooks ids. -/
structure QboIds (family : Option ReasonFamily) (map : LedgerAccountMap) : Prop where
  receivable : isQboId map.arAccountId = true
  deductionsReceivable : isQboId map.deductionsReceivableAccountId = true
  writeoff : isQboId (writeoffAccount family map) = true

/-- Lines that leave the deductions receivable where it was, and move what was written off from the receivable to
the write-off account. -/
structure Closes (entries : List DraftEntry) (family : Option ReasonFamily) (map : LedgerAccountMap)
    (lines : List PostingLine) : Prop where
  deductionsReceivable : moved map.deductionsReceivableAccountId lines = 0
  receivable : moved map.arAccountId lines = -stageTotal .written_off entries
  writeoff : moved (writeoffAccount family map) lines = stageTotal .written_off entries
  elsewhere : ∀ id, id ≠ map.arAccountId → id ≠ map.deductionsReceivableAccountId → id ≠ writeoffAccount family map →
    moved id lines = 0

/-! ## Pairs of lines -/

/-- The two lines of one amount. -/
def pairLines (debit credit : Text) (amount : Cents) : List PostingLine :=
  [⟨debit, .Debit, amount⟩, ⟨credit, .Credit, amount⟩]

section
variable {debit credit account : Text} {amount : Cents} {l l' : List PostingLine} {side : PostingSide}

@[simp] theorem sideTotal_append : sideTotal side (l ++ l') = sideTotal side l + sideTotal side l' := by
  simp [sideTotal, amountsOf]

@[simp] theorem sideTotal_pairLines : sideTotal side (pairLines debit credit amount) = amount.val := by
  cases side <;> simp [sideTotal, amountsOf, pairLines]

@[simp] theorem moved_append : moved account (l ++ l') = moved account l + moved account l' := by
  simp only [moved, List.filter_append, sideTotal_append]
  omega

@[simp] theorem moved_nil : moved account [] = 0 := rfl

@[simp] theorem sideTotal_nil : sideTotal side [] = 0 := rfl

/-- A pair moves its amount onto the account it debits and off the one it credits. -/
theorem moved_pairLines : moved account (pairLines debit credit amount) =
    (if debit = account then amount.val else 0) - (if credit = account then amount.val else 0) := by
  by_cases hd : debit = account <;> by_cases hc : credit = account <;>
    simp [moved, pairLines, sideTotal, amountsOf, hd, hc]

end

/-! ## The lines of a draft -/

section
variable {input : DraftInput} {entries : List DraftEntry} {map : LedgerAccountMap}

/-- What was recovered and what was written off, as `draftEntries` splits the amount. -/
structure Shares (input : DraftInput) (entries : List DraftEntry) (recovered rest : Cents) : Prop where
  amount : 0 < input.amountCents.val
  recovered_nonneg : 0 ≤ recovered.val
  rest_nonneg : 0 ≤ rest.val
  split : recovered.val + rest.val = input.amountCents.val
  written : stageTotal .written_off entries = rest.val

/-- The pairs a settlement sends: what came back, credited to the deductions receivable, and what was given up. -/
def settledLines (input : DraftInput) (map : LedgerAccountMap) (recovered rest : Cents) : List PostingLine :=
  (if 0 < recovered.val then pairLines map.arAccountId map.deductionsReceivableAccountId recovered else []) ++
    (if 0 < rest.val then pairLines (writeoffAccount input.family map) map.deductionsReceivableAccountId rest else [])

/-- The pair the found posting sends. -/
def foundLines (input : DraftInput) (map : LedgerAccountMap) : List PostingLine :=
  pairLines map.deductionsReceivableAccountId map.arAccountId input.amountCents

/-- The rows of a decided draft, stage by stage, are pairs. -/
theorem draft_lines (hd : draftEntries input = .ok entries) (ho : input.outcome.isSome) :
    ∃ recovered rest, Shares input entries recovered rest ∧
      ∀ map : LedgerAccountMap, (rowsAt entries map [.found]).map ofRow = foundLines input map ∧
        (rowsAt entries map (settlementStages false)).map ofRow = settledLines input map recovered rest ∧
        (rowsAt entries map (settlementStages true)).map ofRow =
          foundLines input map ++ settledLines input map recovered rest := by
  have htotal := outcome_closes hd ho
  obtain ⟨accounts, rest, hnone, hrest, rfl⟩ := draftEntries_ok hd
  obtain ⟨hpos, hr0, hra⟩ := draftRefusal_none hnone
  have hz : ZERO.val = 0 := rfl
  refine ⟨input.recoveredCents.getD ZERO, rest, ⟨hpos, hr0, by omega, by omega, ?_⟩, fun map => ?_⟩
  · by_cases h1 : 0 < (input.recoveredCents.getD ZERO).val <;> by_cases h2 : 0 < rest.val <;>
      simp [stageTotal, pair, ho, h1, h2, hz]
    all_goals omega
  · by_cases h1 : 0 < (input.recoveredCents.getD ZERO).val <;> by_cases h2 : 0 < rest.val <;>
      simp [rowsAt, rowsOf, settlementStages, pair, pushed, ofRow, foundLines, settledLines, pairLines, ho, h1, h2, hz,
        hpos, writeoffAccount, Journal.accountFor]

/-- Both sides of the found posting and of the settlement come to what they pair. -/
theorem sideTotal_settledLines {recovered rest : Cents} (h : Shares input entries recovered rest) (side : PostingSide) :
    sideTotal side (settledLines input map recovered rest) = input.amountCents.val := by
  have hr := h.recovered_nonneg
  have hw := h.rest_nonneg
  have hs := h.split
  unfold settledLines
  split_ifs <;> simp <;> omega

theorem foundLines_ne_nil : foundLines input map ≠ [] := List.cons_ne_nil _ _

theorem settledLines_ne_nil {recovered rest : Cents} (h : Shares input entries recovered rest) :
    settledLines input map recovered rest ≠ [] := by
  intro hnil
  have htotal : sideTotal .Debit (settledLines input map recovered rest) = _ := sideTotal_settledLines h .Debit
  rw [hnil, sideTotal_nil] at htotal
  exact absurd htotal h.amount.ne

/-- The found pair and the settled pairs close the case. -/
theorem pairs_close {recovered rest : Cents} (h : Shares input entries recovered rest)
    (hdistinct : Distinct input.family map) :
    Closes entries input.family map (foundLines input map ++ settledLines input map recovered rest) := by
  obtain ⟨h1, h2, h3⟩ := hdistinct
  have hr := h.recovered_nonneg
  have hw := h.rest_nonneg
  have hs := h.split
  have hmoved : ∀ id, moved id (settledLines input map recovered rest) =
      ((if map.arAccountId = id then recovered.val else 0) - (if map.deductionsReceivableAccountId = id then recovered.val else 0)) +
      ((if writeoffAccount input.family map = id then rest.val else 0) -
        (if map.deductionsReceivableAccountId = id then rest.val else 0)) := by
    intro id
    -- a stage that is left out moves nothing
    have hzero : ¬ 0 < recovered.val → recovered.val = 0 := by omega
    have hzero' : ¬ 0 < rest.val → rest.val = 0 := by omega
    unfold settledLines
    rw [moved_append]
    split_ifs <;> simp_all [moved_pairLines]
  refine ⟨?_, ?_, ?_, fun id ha hd hwo => ?_⟩
  · rw [moved_append, hmoved, foundLines, moved_pairLines]
    simp [h1, h3.symm]
    omega
  · rw [moved_append, hmoved, foundLines, moved_pairLines, h.written]
    simp [h1.symm, h2.symm]
    omega
  · rw [moved_append, hmoved, foundLines, moved_pairLines, h.written]
    simp [h2, h3]
  · rw [moved_append, hmoved, foundLines, moved_pairLines]
    simp [ha.symm, hd.symm, hwo.symm]

/-- The accounts a draft names are the case's three. -/
theorem idsAt_of_qboIds (hd : draftEntries input = .ok entries) (hids : QboIds input.family map) (stages : List JournalStage) :
    IdsAt entries map stages := by
  intro entry hentry line _
  have htag : entry.tag = input.family := by
    obtain ⟨accounts, rest, -, -, rfl⟩ := draftEntries_ok hd
    have hmem := (List.mem_filter.1 hentry).1
    rw [List.mem_cons, List.mem_append] at hmem
    rcases hmem with rfl | hmem | hmem
    · rfl
    · split_ifs at hmem
      · rw [List.mem_singleton.1 hmem]
        rfl
      · exact absurd hmem List.not_mem_nil
    · split_ifs at hmem
      · rw [List.mem_singleton.1 hmem]
        rfl
      · exact absurd hmem List.not_mem_nil
  rw [htag]
  cases line.role
  · exact hids.receivable
  · exact hids.deductionsReceivable
  · exact hids.receivable
  · exact hids.writeoff

/-- **The postings of a decided case close it.** Each balances; the found posting with the settlement posting, and
the settlement posting with the found entry in it, close the case; the computed lines are there for both stage sets
and are the posted ones wherever `entryLines` returns. Of accounts that are QuickBooks ids it always returns the
two separate postings, and the whole one exactly where twice the amount is a safe integer. -/
theorem postings_close (hd : draftEntries input = .ok entries) (ho : input.outcome.isSome)
    (hdistinct : Distinct input.family map) :
    (∀ found settled, entryLines entries map [.found] = .ok found →
      entryLines entries map (settlementStages false) = .ok settled →
        Balanced found ∧ Balanced settled ∧ Closes entries input.family map (found ++ settled)) ∧
    (∀ whole, entryLines entries map (settlementStages true) = .ok whole →
      Balanced whole ∧ Closes entries input.family map whole) ∧
    (∀ includeFound, ∃ computed, settlementLinesFrom entries map includeFound = .ok computed ∧
      ∀ lines, entryLines entries map (settlementStages includeFound) = .ok lines → computed.map posting = lines) ∧
    (QboIds input.family map →
      (∃ found, entryLines entries map [.found] = .ok found) ∧
      (∃ settled, entryLines entries map (settlementStages false) = .ok settled) ∧
      ((∃ whole, entryLines entries map (settlementStages true) = .ok whole) ↔ InRange (2 * input.amountCents.val))) := by
  obtain ⟨recovered, rest, hshares, hlines⟩ := draft_lines hd ho
  obtain ⟨hfound, hsettled, hwhole⟩ := hlines map
  have hsum : ∀ side, sideTotal side (foundLines input map) = input.amountCents.val := fun _ => sideTotal_pairLines
  have hsums : ∀ side, sideTotal side (settledLines input map recovered rest) = input.amountCents.val :=
    sideTotal_settledLines hshares
  refine ⟨fun found settled hf hs => ?_, fun whole hw => ?_, fun includeFound => ?_, fun hids => ⟨?_, ?_, ?_⟩⟩
  · obtain ⟨-, rfl, -, hbf, -⟩ := entryLines_ok.1 hf
    obtain ⟨-, rfl, -, hbs, -⟩ := entryLines_ok.1 hs
    refine ⟨hbf, hbs, ?_⟩
    rw [hfound, hsettled]
    exact pairs_close hshares hdistinct
  · obtain ⟨-, rfl, -, hb, -⟩ := entryLines_ok.1 hw
    refine ⟨hb, ?_⟩
    rw [hwhole]
    exact pairs_close hshares hdistinct
  · obtain ⟨computed, hcomputed⟩ : ∃ computed, settlementLinesFrom entries map includeFound = .ok computed :=
      (settlementLinesFrom_returns hd).2 (.inr (.inl ho))
    refine ⟨computed, hcomputed, fun lines h => ?_⟩
    obtain ⟨computed', hcomputed', heq⟩ := entryLines_computed h
    obtain rfl := Except.ok.inj (hcomputed.symm.trans hcomputed')
    exact heq
  · refine ⟨_, entryLines_ok.2 ⟨idsAt_of_qboIds hd hids _, rfl, ?_⟩⟩
    rw [hfound, hsum, hsum]
    exact ⟨foundLines_ne_nil, rfl, input.amountCents.inRange⟩
  · refine ⟨_, entryLines_ok.2 ⟨idsAt_of_qboIds hd hids _, rfl, ?_⟩⟩
    rw [hsettled, hsums, hsums]
    exact ⟨settledLines_ne_nil hshares, rfl, input.amountCents.inRange⟩
  · have htotal : ∀ side, sideTotal side (foundLines input map ++ settledLines input map recovered rest) =
        2 * input.amountCents.val := by
      intro side
      rw [sideTotal_append, hsum, hsums]
      omega
    constructor
    · rintro ⟨whole, hw⟩
      obtain ⟨-, rfl, -, -, hin⟩ := entryLines_ok.1 hw
      rwa [hwhole, htotal] at hin
    · intro hin
      refine ⟨_, entryLines_ok.2 ⟨idsAt_of_qboIds hd hids _, rfl, ?_⟩⟩
      rw [hwhole, htotal, htotal]
      exact ⟨List.append_ne_nil_of_left_ne_nil foundLines_ne_nil _, rfl, hin⟩

end

/-- Three accounts of a ledger, as the ids it gives them. -/
def numberedAccounts : LedgerAccountMap :=
  { arAccountId := "84".toList, deductionsReceivableAccountId := "120".toList,
    writeoffByFamily := fun _ => "7".toList, unclassifiedWriteoff := "8".toList }

/-- A partial recovery: 50.00 of 120.00 came back. -/
def partialDraft : DraftInput :=
  { amountCents := ⟨12000, by decide, by decide⟩, recoveredCents := some ⟨5000, by decide, by decide⟩,
    outcome := some .partially, family := some .shortage, printedReasonCode := none, map := none }

theorem partial_recovery_closes : ∃ entries, draftEntries partialDraft = .ok entries ∧
    ∃ found settled, entryLines entries numberedAccounts [.found] = .ok found ∧
      entryLines entries numberedAccounts (settlementStages false) = .ok settled ∧
      Closes entries (some .shortage) numberedAccounts (found ++ settled) :=
  ⟨_, rfl, _, _, rfl, rfl, ((@postings_close partialDraft _ numberedAccounts rfl rfl
    ⟨by decide, by decide, by decide⟩).1 _ _ rfl rfl).2.2⟩

/-- A declined case of the largest safe amount. -/
def largestDeclined : DraftInput :=
  { amountCents := ⟨9007199254740991, by decide, by decide⟩, recoveredCents := none, outcome := some .declined,
    family := none, printedReasonCode := none, map := none }

/-- Its settlement posting, found entry included, is refused, though its lines are computed. -/
theorem whole_posting_refused : ∃ entries computed e, draftEntries largestDeclined = .ok entries ∧
    settlementLinesFrom entries numberedAccounts true = .ok computed ∧
    entryLines entries numberedAccounts (settlementStages true) = .error e :=
  ⟨_, _, _, rfl, rfl, rfl⟩

end Recouple.Qbo
