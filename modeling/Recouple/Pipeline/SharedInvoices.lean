import Recouple.Pipeline.RemittanceLines

/-!
# Two readings of "the lines share an invoice"

The pipeline groups lines by `identifierMatchKey` of a printed identifier; the reconciler by
`sameReference` of whatever the field holds. Gross and net they read alike (`quietMoney_eq`). So the two
part company exactly on the texts of `FoldsAlike`: a blank or overlong invoice, which only the reconciler
reads, and white space inside one, which only the pipeline folds (`sharing_agrees_iff`).
-/

namespace Recouple.Pipeline
open Js Extraction

section
variable (T : CaseTables)

/-! ## The two readings -/

/-- The pipeline puts the two lines in one group, with one gross and one net. -/
def PipelineShares (advice : RemittanceAdvice) (i j : Nat) : Prop :=
  ∃ key row, (lineClaimIds T advice.lines (printedIdentifier advice.payment_reference))[i]? = some (some key) ∧
    advice.lines[i]? = some row ∧ j ∈ key.group ∧ j ≠ i ∧
    sameColumns T (printedMoneyCents T row.gross_amount) (printedMoneyCents T row.net_amount) advice.lines[j]?

/-- The reconciler counts line `j` as repeating the gross and net of line `i`'s invoice. -/
def ReconcilerShares (advice : RemittanceAdvice) (i j : Nat) : Prop :=
  ∃ row gross net, advice.lines[i]? = some row ∧ quietMoney T row.gross_amount = some gross ∧
    quietMoney T row.net_amount = some net ∧ j ∈ sharingInvoice T advice.lines i gross net

/-- The pipeline: gross less net belongs to several lines. -/
def PipelineSeveral (advice : RemittanceAdvice) (i : Nat) : Prop :=
  ∃ key, (lineClaimIds T advice.lines (printedIdentifier advice.payment_reference))[i]? = some (some key) ∧
    key.sharesGrossAndNet = true

/-- The reconciler: gross less net belongs to several lines. -/
def ReconcilerSeveral (advice : RemittanceAdvice) (i : Nat) : Prop :=
  ∃ row gross net, advice.lines[i]? = some row ∧ quietMoney T row.gross_amount = some gross ∧
    quietMoney T row.net_amount = some net ∧ sharingInvoice T advice.lines i gross net ≠ []

/-! ## Where they agree -/

/-- A text `printedIdentifier` keeps: neither blank nor overlong. -/
def Usable (text : Text) : Prop := trim text ≠ [] ∧ utf16Length (trim text) ≤ MAX_IDENTIFIER_LENGTH

instance (text : Text) : Decidable (Usable text) := inferInstanceAs (Decidable (_ ∧ _))

/-- Both readable lines print the same gross and the same net. -/
def SameAmounts (a b : RemittanceLine) : Prop :=
  ∃ gross net, quietMoney T a.gross_amount = some gross ∧ quietMoney T a.net_amount = some net ∧
    quietMoney T b.gross_amount = some gross ∧ quietMoney T b.net_amount = some net

/-- The two invoice texts fold to one with their white space collapsed exactly if they do as they are, and
not at all unless both are usable. -/
def FoldsAlike (a b : Text) : Prop :=
  if Usable a ∧ Usable b then
    (T.toLowerCase (collapse (trim a)) = T.toLowerCase (collapse (trim b)) ↔
      T.toLowerCase (trim a) = T.toLowerCase (trim b))
  else T.toLowerCase (trim a) ≠ T.toLowerCase (trim b)

theorem quietMoney_eq (field : Option Text) : printedMoneyCents T field = quietMoney T field := by
  cases field with
  | none => rfl
  | some text =>
    simp only [printedMoneyCents, quietMoney, Option.bind_some]
    split
    · rename_i h; rw [parseMoneyToCents_blank T h]; rfl
    · rfl

theorem printedIdentifier_some {text : Text} :
    printedIdentifier (some text) = if Usable text then some (trim text) else none := by
  simp only [printedIdentifier, Option.bind_some, Usable]
  by_cases h : trim text = []
  · simp [h]
  · by_cases hl : utf16Length (trim text) ≤ MAX_IDENTIFIER_LENGTH
    · simp [h, hl]
    · simp [h, hl, Nat.lt_of_not_le hl]

theorem invoiceAt_eq_some {rows : List RemittanceLine} {j : Nat} {invoice : Text} :
    invoiceAt rows j = some invoice ↔ ∃ row text, rows[j]? = some row ∧ row.invoice_number = some text ∧
      Usable text ∧ trim text = invoice := by
  rw [invoiceAt, Option.bind_eq_some_iff]
  constructor
  · rintro ⟨row, hrow, hp⟩
    cases htext : row.invoice_number with
    | none => rw [htext] at hp; cases hp
    | some text =>
      rw [htext, printedIdentifier_some] at hp
      split at hp
      · exact ⟨row, text, hrow, htext, ‹_›, Option.some.inj hp⟩
      · cases hp
  · rintro ⟨row, text, hrow, htext, hu, rfl⟩
    exact ⟨row, hrow, by rw [htext, printedIdentifier_some, if_pos hu]⟩

theorem mem_groupOf {rows : List RemittanceLine} {key : Text} {j : Nat} :
    j ∈ groupOf T rows key ↔ ∃ invoice, invoiceAt rows j = some invoice ∧ identifierMatchKey T invoice = key := by
  simp only [groupOf, List.mem_filter, List.mem_range, decide_eq_true_eq, Option.map_eq_some_iff]
  refine ⟨fun h => h.2, fun h => ⟨?_, h⟩⟩
  obtain ⟨invoice, hi, -⟩ := h
  obtain ⟨row, -, hrow, -⟩ := invoiceAt_eq_some.1 hi
  exact (List.getElem?_eq_some_iff.1 hrow).1

/-- A line has a key exactly if it prints a usable invoice. -/
theorem lineClaimIds_eq_some {rows : List RemittanceLine} {reference : Option Text} {i : Nat} {key : LineKey} :
    (lineClaimIds T rows reference)[i]? = some (some key) ↔
      ∃ row, rows[i]? = some row ∧ lineKey T rows reference i row = some key := by
  rw [lineClaimIds, List.getElem?_mapIdx, Option.map_eq_some_iff]

theorem lineKey_group {rows : List RemittanceLine} {reference : Option Text} {i : Nat} {row : RemittanceLine}
    {key : LineKey} (h : lineKey T rows reference i row = some key) :
    ∃ invoice, printedIdentifier row.invoice_number = some invoice ∧
      key.group = groupOf T rows (identifierMatchKey T invoice) := by
  obtain ⟨invoice, hi, hkey⟩ := Option.map_eq_some_iff.1 h
  refine ⟨invoice, hi, ?_⟩
  rw [← hkey]
  dsimp only
  split <;> rfl

theorem sameReference_comm (a b : Text) : sameReference T a b = sameReference T b a := by
  unfold sameReference
  exact decide_eq_decide.2 eq_comm

variable {T} {advice : RemittanceAdvice} {i j : Nat} {row other : RemittanceLine}

theorem sameColumns_iff (hj : advice.lines[j]? = some other) :
    sameColumns T (printedMoneyCents T row.gross_amount) (printedMoneyCents T row.net_amount) advice.lines[j]? =
      true ↔ SameAmounts T row other := by
  simp only [sameColumns, hj, Option.bind_some, quietMoney_eq, Bool.and_eq_true, decide_eq_true_eq,
    Option.isSome_iff_exists]
  constructor
  · rintro ⟨⟨⟨⟨gross, hg⟩, ⟨net, hn⟩⟩, hg'⟩, hn'⟩
    exact ⟨gross, net, hg, hn, hg'.trans hg, hn'.trans hn⟩
  · rintro ⟨gross, net, hg, hn, hg', hn'⟩
    exact ⟨⟨⟨⟨gross, hg⟩, ⟨net, hn⟩⟩, hg'.trans hg.symm⟩, hn'.trans hn.symm⟩

/-- The pipeline's reading of two lines. -/
theorem pipelineShares_iff (hi : advice.lines[i]? = some row) (hj : advice.lines[j]? = some other) :
    PipelineShares T advice i j ↔ j ≠ i ∧ SameAmounts T row other ∧ ∃ a b, row.invoice_number = some a ∧
      other.invoice_number = some b ∧ Usable a ∧ Usable b ∧
      identifierMatchKey T (trim a) = identifierMatchKey T (trim b) := by
  constructor
  · rintro ⟨key, row', hkey, hrow, hmem, hne, hcols⟩
    rw [hi, Option.some.injEq] at hrow
    subst hrow
    obtain ⟨row', hrow, hkey⟩ := (lineClaimIds_eq_some T).1 hkey
    rw [hi, Option.some.injEq] at hrow
    subst hrow
    obtain ⟨invoice, hinv, hgroup⟩ := lineKey_group T hkey
    obtain ⟨row', a, hrow, ha, hua, rfl⟩ := invoiceAt_eq_some.1
      (show invoiceAt advice.lines i = some invoice by rw [invoiceAt, hi, Option.bind_some, hinv])
    rw [hi, Option.some.injEq] at hrow
    subst hrow
    rw [hgroup, mem_groupOf] at hmem
    obtain ⟨theirs, htheirs, hfold⟩ := hmem
    obtain ⟨other', b, hother, hb, hub, rfl⟩ := invoiceAt_eq_some.1 htheirs
    rw [hj, Option.some.injEq] at hother
    subst hother
    exact ⟨hne, (sameColumns_iff hj).1 hcols, a, b, ha, hb, hua, hub, hfold.symm⟩
  · rintro ⟨hne, hamounts, a, b, ha, hb, hua, hub, hfold⟩
    have hinv : printedIdentifier row.invoice_number = some (trim a) := by
      rw [ha, printedIdentifier_some, if_pos hua]
    obtain ⟨key, hkey⟩ : ∃ key, lineKey T advice.lines (printedIdentifier advice.payment_reference) i row = some key := by
      rw [lineKey, hinv]
      exact ⟨_, rfl⟩
    obtain ⟨invoice, hinv', hgroup⟩ := lineKey_group T hkey
    rw [hinv, Option.some.injEq] at hinv'
    subst hinv'
    refine ⟨key, row, (lineClaimIds_eq_some T).2 ⟨row, hi, hkey⟩, hi, ?_, hne, (sameColumns_iff hj).2 hamounts⟩
    rw [hgroup, mem_groupOf]
    exact ⟨trim b, invoiceAt_eq_some.2 ⟨other, b, hj, hb, hub, rfl⟩, hfold.symm⟩

/-- The reconciler's reading of two lines. -/
theorem reconcilerShares_iff (hi : advice.lines[i]? = some row) (hj : advice.lines[j]? = some other) :
    ReconcilerShares T advice i j ↔ j ≠ i ∧ SameAmounts T row other ∧ ∃ a b, row.invoice_number = some a ∧
      other.invoice_number = some b ∧ sameReference T a b = true := by
  have hmem : ∀ gross net, j ∈ sharingInvoice T advice.lines i gross net ↔ ∃ a, row.invoice_number = some a ∧
      j ≠ i ∧ printsSame T a gross net other = true := by
    intro gross net
    cases ha : row.invoice_number with
    | none => simp [sharingInvoice, hi, ha]
    | some a =>
      obtain ⟨hlt, hget⟩ := List.getElem?_eq_some_iff.1 hj
      simp [sharingInvoice, hi, ha, hget, hlt]
  have hsame : ∀ a gross net, printsSame T a gross net other = true ↔ ∃ b, other.invoice_number = some b ∧
      sameReference T a b = true ∧ quietMoney T other.gross_amount = some gross ∧
      quietMoney T other.net_amount = some net := by
    intro a gross net
    cases hb : other.invoice_number with
    | none => simp [printsSame, hb]
    | some b => simp [printsSame, hb, sameReference_comm T b a, and_assoc]
  constructor
  · rintro ⟨row', gross, net, hrow, hg, hn, hin⟩
    rw [hi, Option.some.injEq] at hrow
    subst hrow
    obtain ⟨a, ha, hne, hp⟩ := (hmem gross net).1 hin
    obtain ⟨b, hb, href, hg', hn'⟩ := (hsame a gross net).1 hp
    exact ⟨hne, ⟨gross, net, hg, hn, hg', hn'⟩, a, b, ha, hb, href⟩
  · rintro ⟨hne, ⟨gross, net, hg, hn, hg', hn'⟩, a, b, ha, hb, href⟩
    exact ⟨row, gross, net, hi, hg, hn, (hmem gross net).2 ⟨a, ha, hne, (hsame a gross net).2 ⟨b, hb, href, hg', hn'⟩⟩⟩

/-- On two lines with one gross and one net, the two readings agree exactly if the texts fold alike. -/
theorem foldsAlike_iff (a b : Text) : FoldsAlike T a b ↔
    (Usable a ∧ Usable b ∧ identifierMatchKey T (trim a) = identifierMatchKey T (trim b) ↔
      sameReference T a b = true) := by
  simp only [FoldsAlike, identifierMatchKey, trim_trim, sameReference, decide_eq_true_eq]
  split
  · rename_i h; simp [h]
  · rename_i h
    constructor
    · intro hne
      exact ⟨fun ⟨ha, hb, _⟩ => absurd ⟨ha, hb⟩ h, fun heq => absurd heq hne⟩
    · intro hiff heq
      obtain ⟨ha, hb, -⟩ := hiff.2 heq
      exact h ⟨ha, hb⟩

theorem exists_row_of_pipeline (h : PipelineShares T advice i j) :
    ∃ row other, advice.lines[i]? = some row ∧ advice.lines[j]? = some other := by
  obtain ⟨key, row, hkey, hi, hmem, -⟩ := h
  obtain ⟨row', hrow, hkey'⟩ := (lineClaimIds_eq_some T).1 hkey
  obtain ⟨invoice, -, hgroup⟩ := lineKey_group T hkey'
  rw [hgroup, mem_groupOf] at hmem
  obtain ⟨_, htheirs, -⟩ := hmem
  obtain ⟨other, _, hj, -⟩ := invoiceAt_eq_some.1 htheirs
  exact ⟨row, other, hi, hj⟩

theorem exists_row_of_reconciler (h : ReconcilerShares T advice i j) :
    ∃ row other, advice.lines[i]? = some row ∧ advice.lines[j]? = some other := by
  obtain ⟨row, gross, net, hi, -, -, hmem⟩ := h
  have hlt : j < advice.lines.length := by
    unfold sharingInvoice at hmem
    split at hmem
    · cases hmem
    · exact List.mem_range.1 (List.mem_filter.1 hmem).1
  exact ⟨row, advice.lines[j], hi, List.getElem?_eq_getElem hlt⟩

/-- A line shares its gross and net with several exactly if it does with some other. -/
theorem pipelineSeveral_iff : PipelineSeveral T advice i ↔ ∃ j, PipelineShares T advice i j := by
  constructor
  · rintro ⟨key, hkey, hshares⟩
    obtain ⟨row, hrow, hline⟩ := (lineClaimIds_eq_some T).1 hkey
    obtain ⟨invoice, -, rfl⟩ := Option.map_eq_some_iff.1 hline
    dsimp only at hshares hkey
    split at hshares
    · cases hshares
    · rename_i hlong
      obtain ⟨j, hj, hcols⟩ := List.any_eq_true.1 hshares
      rw [Bool.and_eq_true, decide_eq_true_eq] at hcols
      rw [if_neg hlong] at hkey
      exact ⟨j, _, row, hkey, hrow, hj, hcols.1, hcols.2⟩
  · rintro ⟨j, key, row, hkey, hrow, hj, hne, hcols⟩
    refine ⟨key, hkey, ?_⟩
    obtain ⟨row', hrow', hline⟩ := (lineClaimIds_eq_some T).1 hkey
    rw [hrow, Option.some.injEq] at hrow'
    subst hrow'
    obtain ⟨invoice, hinv, rfl⟩ := Option.map_eq_some_iff.1 hline
    dsimp only at hj ⊢
    have hown : i ∈ groupOf T advice.lines (identifierMatchKey T invoice) :=
      (mem_groupOf T).2 ⟨invoice, by rw [invoiceAt, hrow, Option.bind_some, hinv], rfl⟩
    split at hj
    · -- a group of one line is the line itself
      rename_i hone
      obtain ⟨x, hx⟩ := List.length_eq_one_iff.1 hone
      rw [hx, List.mem_singleton] at hown
      dsimp only at hj
      rw [hx, List.mem_singleton] at hj
      exact absurd (hj.trans hown.symm) hne
    · rename_i hlong
      rw [if_neg hlong]
      exact List.any_eq_true.2 ⟨j, hj, by rw [Bool.and_eq_true, decide_eq_true_eq]; exact ⟨hne, hcols⟩⟩

theorem reconcilerSeveral_iff : ReconcilerSeveral T advice i ↔ ∃ j, ReconcilerShares T advice i j := by
  constructor
  · rintro ⟨row, gross, net, hrow, hg, hn, hne⟩
    obtain ⟨j, hj⟩ := List.exists_mem_of_ne_nil _ hne
    exact ⟨j, row, gross, net, hrow, hg, hn, hj⟩
  · rintro ⟨j, row, gross, net, hrow, hg, hn, hj⟩
    exact ⟨row, gross, net, hrow, hg, hn, List.ne_nil_of_mem hj⟩

end

/-- **The two packages agree about shared invoices exactly where the texts fold alike.** Of an advice:
every two lines are shared in both or in neither, and every line's gross less net belongs to several lines
in both or in neither, if and only if any two different lines with one readable gross and net print invoices
that fold alike. -/
theorem sharing_agrees_iff (T : CaseTables) (advice : RemittanceAdvice) :
    ((∀ i j, PipelineShares T advice i j ↔ ReconcilerShares T advice i j) ∧
      ∀ i, PipelineSeveral T advice i ↔ ReconcilerSeveral T advice i) ↔
    ∀ (i j : Nat) (row other : RemittanceLine) (a b : Text), advice.lines[i]? = some row → advice.lines[j]? = some other → j ≠ i →
      SameAmounts T row other → row.invoice_number = some a → other.invoice_number = some b →
      FoldsAlike T a b := by
  constructor
  · rintro ⟨hshares, -⟩ i j row other a b hi hj hne hamounts ha hb
    rw [foldsAlike_iff]
    have := hshares i j
    rw [pipelineShares_iff hi hj, reconcilerShares_iff hi hj] at this
    simpa [hne, hamounts, ha, hb] using this
  · intro hfold
    have hshares : ∀ i j, PipelineShares T advice i j ↔ ReconcilerShares T advice i j := by
      intro i j
      have hiff : ∀ {row other}, advice.lines[i]? = some row → advice.lines[j]? = some other →
          (PipelineShares T advice i j ↔ ReconcilerShares T advice i j) := by
        intro row other hi hj
        rw [pipelineShares_iff hi hj, reconcilerShares_iff hi hj]
        refine and_congr_right fun hne => and_congr_right fun hamounts => exists_congr fun a =>
          exists_congr fun b => and_congr_right fun ha => and_congr_right fun hb => ?_
        exact (foldsAlike_iff a b).1 (hfold i j row other a b hi hj hne hamounts ha hb)
      constructor
      · intro h
        obtain ⟨row, other, hi, hj⟩ := exists_row_of_pipeline h
        exact (hiff hi hj).1 h
      · intro h
        obtain ⟨row, other, hi, hj⟩ := exists_row_of_reconciler h
        exact (hiff hi hj).2 h
    refine ⟨hshares, fun i => ?_⟩
    rw [pipelineSeveral_iff, reconcilerSeveral_iff]
    exact exists_congr (hshares i)

/-- Two $500.00 and $300.00 deductions of one invoice, printed `INV 7` and, with a second blank, `INV  7`. -/
def respaced : RemittanceAdvice :=
  { payer_name := none, payment_reference := some "ACH-1", payment_date := none
    lines := [⟨some "INV 7", some "$5,600.00", some "$4,800.00", some "$500.00", none⟩,
      ⟨some "INV  7", some "$5,600.00", some "$4,800.00", some "$300.00", none⟩] }

theorem respaced_disagrees : PipelineSeveral asciiCase respaced 0 ∧ ¬ ReconcilerSeveral asciiCase respaced 0 := by
  constructor
  · exact ⟨⟨"ACH-1:INV 7#1", some "ACH-1:INV 7", [0, 1], true⟩, by decide, rfl⟩
  · rintro ⟨row, gross, net, hrow, hg, hn, hne⟩
    cases hrow
    have hgross : gross = ⟨560000, by decide, by decide⟩ := Option.some.inj (hg.symm.trans (by decide))
    have hnet : net = ⟨480000, by decide, by decide⟩ := Option.some.inj (hn.symm.trans (by decide))
    subst hgross hnet
    exact hne (by decide)

end Recouple.Pipeline
