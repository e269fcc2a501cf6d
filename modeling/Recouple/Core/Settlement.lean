import Recouple.Core.Classification

/-!
# The ledger a sync tallies: `packages/core-domain/src/settlement.ts`

A window of activity and the histories of the invoices it names are read separately and overlap.
`settlementLedger` (73-96) joins them: one copy of each payment and credit, the history's if there is
one, its applications trimmed to the invoices that were asked for.

`settlementLedger_combines` is what the join guarantees. What it does not guarantee is that an
application carried by the window survives: a history copy of the same row replaces the window's, with
whatever applications it carries itself (`history_copy_drops_application`).
-/

namespace Recouple
open Js FirstSeen KeyedFold

/-- The payments and credits dated inside a window. -/
structure LedgerActivity where
  payments : List LedgerPayment
  credits : List LedgerCredit

/-- What `mergeTrimmed` asks of a row (`T extends { externalId; appliedTo }`): the two fields, and that
`{ ...row, appliedTo }` replaces the one and keeps the other. -/
class LedgerRow (T : Type) where
  externalId : T → Text
  appliedTo : T → List LedgerApplication
  withAppliedTo : T → List LedgerApplication → T
  appliedTo_with : ∀ row l, appliedTo (withAppliedTo row l) = l
  externalId_with : ∀ row l, externalId (withAppliedTo row l) = externalId row
  with_self : ∀ row, withAppliedTo row (appliedTo row) = row

instance : LedgerRow LedgerPayment where
  externalId := LedgerPayment.externalId
  appliedTo := LedgerPayment.appliedTo
  withAppliedTo row l := { row with appliedTo := l }
  appliedTo_with _ _ := rfl
  externalId_with _ _ := rfl
  with_self _ := rfl

instance : LedgerRow LedgerCredit where
  externalId := LedgerCredit.externalId
  appliedTo := LedgerCredit.appliedTo
  withAppliedTo row l := { row with appliedTo := l }
  appliedTo_with _ _ := rfl
  externalId_with _ _ := rfl
  with_self _ := rfl

/-- Every invoice the window's rows name, once, sorted; a blank id names none. -/
def invoicesNamedBy (activity : LedgerActivity) : List Text :=
  (firstSeen (((activity.payments.flatMap (·.appliedTo) ++ activity.credits.flatMap (·.appliedTo)).map
    (·.invoiceExternalId)).filter fun id => decide (trim id ≠ []))).insertionSort textLe

section
variable {T : Type} [LedgerRow T]

/-- The row, its applications trimmed to the requested invoices. -/
def trimRow (requested : List Text) (row : T) : T :=
  let appliedTo := (LedgerRow.appliedTo row).filter fun a => a.invoiceExternalId ∈ requested
  if appliedTo.length = (LedgerRow.appliedTo row).length then row
  else LedgerRow.withAppliedTo row appliedTo

def mergeTrimmed (preferred rest : List T) (requested : List Text) : List T :=
  (firstBy LedgerRow.externalId (preferred ++ rest)).map (trimRow requested)

end

def settlementLedger (activity : LedgerActivity) (histories : LedgerInvoiceHistories) :
    SettlementLedger :=
  let requested := invoicesNamedBy activity
  { invoices := firstBy (·.externalId)
      (histories.invoices.filter fun invoice => invoice.externalId ∈ requested)
    payments := mergeTrimmed histories.payments activity.payments requested
    credits := mergeTrimmed histories.credits activity.credits requested }

/-! ## What the join keeps -/

theorem mem_invoicesNamedBy {activity : LedgerActivity} {id : Text} :
    id ∈ invoicesNamedBy activity ↔ trim id ≠ [] ∧
      ((∃ p ∈ activity.payments, ∃ a ∈ p.appliedTo, a.invoiceExternalId = id) ∨
        ∃ c ∈ activity.credits, ∃ a ∈ c.appliedTo, a.invoiceExternalId = id) := by
  unfold invoicesNamedBy
  rw [(List.perm_insertionSort _ _).mem_iff, mem_firstSeen, List.mem_filter, decide_eq_true_eq,
    and_comm]
  simp only [List.map_append, List.mem_append, List.mem_map, List.mem_flatMap]
  refine and_congr_right fun _ => or_congr ?_ ?_
  · constructor
    · rintro ⟨a, ⟨p, hp, ha⟩, hid⟩; exact ⟨p, hp, a, ha, hid⟩
    · rintro ⟨p, hp, a, ha, hid⟩; exact ⟨a, ⟨p, hp, ha⟩, hid⟩
  · constructor
    · rintro ⟨a, ⟨c, hc, ha⟩, hid⟩; exact ⟨c, hc, a, ha, hid⟩
    · rintro ⟨c, hc, a, ha, hid⟩; exact ⟨a, ⟨c, hc, ha⟩, hid⟩

section
variable {T : Type} [LedgerRow T] {requested : List Text}

/-- Trimming replaces the applications and nothing else. -/
theorem trimRow_eq (row : T) :
    trimRow requested row = LedgerRow.withAppliedTo row
      ((LedgerRow.appliedTo row).filter fun a => a.invoiceExternalId ∈ requested) := by
  unfold trimRow
  simp only
  split
  · rename_i h
    rw [List.filter_eq_self.2 (List.length_filter_eq_length_iff.1 h), LedgerRow.with_self]
  · rfl

/-- The copy of a row that the join keeps: the history's, else the window's first. -/
def copyOf (preferred rest : List T) (id : Text) : Option T :=
  (preferred.find? fun row => LedgerRow.externalId row = id).or
    (rest.find? fun row => LedgerRow.externalId row = id)

/-- Both reads together: one copy of each external id. -/
def unionOf (preferred rest : List T) : List T :=
  (firstSeen ((preferred ++ rest).map LedgerRow.externalId)).filterMap (copyOf preferred rest)

theorem firstBy_append_eq_unionOf (preferred rest : List T) :
    firstBy LedgerRow.externalId (preferred ++ rest) = unionOf preferred rest := by
  rw [firstBy_eq_filterMap, unionOf]
  refine List.filterMap_congr fun id _ => ?_
  rw [List.find?_append, copyOf]

/-- How the join of two reads of one kind of row comes out. -/
structure Combined (requested : List Text) (preferred rest out : List T) : Prop where
  /-- Every row once per external id. -/
  once : (out.map LedgerRow.externalId).Nodup
  /-- No external id of either read is lost, none is added. -/
  complete : ∀ id, id ∈ out.map LedgerRow.externalId ↔ id ∈ (preferred ++ rest).map LedgerRow.externalId
  /-- The history's copy wins, and keeps its applications exactly for the requested invoices. -/
  kept : ∀ row ∈ out, ∃ source, copyOf preferred rest (LedgerRow.externalId row) = some source ∧
    row = LedgerRow.withAppliedTo source
      ((LedgerRow.appliedTo source).filter fun a => a.invoiceExternalId ∈ requested)
  /-- A window row that is its id's only copy keeps every application that names an invoice. -/
  window : ∀ source ∈ rest, copyOf preferred rest (LedgerRow.externalId source) = some source →
    ∃ row ∈ out, row = LedgerRow.withAppliedTo source
      ((LedgerRow.appliedTo source).filter fun a => decide (trim a.invoiceExternalId ≠ []))

theorem copyOf_some {preferred rest : List T} {id : Text} {source : T}
    (h : copyOf preferred rest id = some source) :
    source ∈ preferred ++ rest ∧ LedgerRow.externalId source = id := by
  rw [copyOf, ← List.find?_append] at h
  exact ⟨List.mem_of_find?_eq_some h, by simpa using List.find?_some h⟩

theorem mem_unionOf {preferred rest : List T} {source : T} :
    source ∈ unionOf preferred rest ↔
      copyOf preferred rest (LedgerRow.externalId source) = some source := by
  unfold unionOf
  rw [List.mem_filterMap]
  constructor
  · rintro ⟨id, -, h⟩
    rw [(copyOf_some h).2]
    exact h
  · intro h
    exact ⟨_, mem_firstSeen.2 (List.mem_map_of_mem (copyOf_some h).1), h⟩

@[simp] theorem externalId_trimRow (row : T) :
    LedgerRow.externalId (trimRow requested row) = LedgerRow.externalId row := by
  rw [trimRow_eq, LedgerRow.externalId_with]

@[simp] theorem appliedTo_trimRow (row : T) : LedgerRow.appliedTo (trimRow requested row) =
    (LedgerRow.appliedTo row).filter fun a => a.invoiceExternalId ∈ requested := by
  rw [trimRow_eq, LedgerRow.appliedTo_with]

theorem map_externalId_mergeTrimmed (preferred rest : List T) :
    (mergeTrimmed preferred rest requested).map LedgerRow.externalId =
      (firstBy LedgerRow.externalId (preferred ++ rest)).map LedgerRow.externalId := by
  rw [mergeTrimmed, List.map_map]
  exact List.map_congr_left fun row _ => externalId_trimRow row

/-- The join of two reads, where the requested invoices are those the window names. -/
theorem mergeTrimmed_combined (preferred rest : List T)
    (hreq : ∀ row ∈ rest, ∀ a ∈ LedgerRow.appliedTo row,
      (a.invoiceExternalId ∈ requested ↔ trim a.invoiceExternalId ≠ [])) :
    Combined requested preferred rest (mergeTrimmed preferred rest requested) where
  once := by
    rw [map_externalId_mergeTrimmed]
    exact nodup_firstBy _ _
  complete id := by
    rw [map_externalId_mergeTrimmed]
    exact mem_map_firstBy _ _ _
  kept row hrow := by
    rw [mergeTrimmed, firstBy_append_eq_unionOf] at hrow
    obtain ⟨source, hsource, rfl⟩ := List.mem_map.1 hrow
    rw [externalId_trimRow]
    exact ⟨source, mem_unionOf.1 hsource, trimRow_eq source⟩
  window source hsource hcopy := by
    refine ⟨trimRow requested source, ?_, ?_⟩
    · rw [mergeTrimmed, firstBy_append_eq_unionOf]
      exact List.mem_map_of_mem (mem_unionOf.2 hcopy)
    · rw [trimRow_eq]
      congr 1
      refine List.filter_congr fun a ha => ?_
      simp only [decide_eq_decide]
      exact hreq source hsource a ha

/-- Trimming to the requested invoices keeps what a row puts against each of them. -/
theorem rowSum_trimRow {id : Text} (hid : id ∈ requested) (row : T) :
    rowSum id (LedgerRow.appliedTo (trimRow requested row)) = rowSum id (LedgerRow.appliedTo row) := by
  rw [appliedTo_trimRow, rowSum, rowSum, List.filter_filter]
  congr 2
  refine List.filter_congr fun a _ => ?_
  by_cases ha : a.invoiceExternalId = id
  · simp [ha, hid]
  · simp [ha]

/-- What the joined rows put against a requested invoice is what both reads together put there. -/
theorem sum_mergeTrimmed {id : Text} (hid : id ∈ requested) (preferred rest : List T) :
    ((mergeTrimmed preferred rest requested).map fun row => rowSum id (LedgerRow.appliedTo row)).sum =
      ((unionOf preferred rest).map fun row => rowSum id (LedgerRow.appliedTo row)).sum := by
  rw [mergeTrimmed, firstBy_append_eq_unionOf, List.map_map]
  congr 1
  exact List.map_congr_left fun row _ => rowSum_trimRow hid row

end

/-- **Window and history, joined.** Every payment and credit appears once per external id, the history's
copy winning; applications are kept exactly for the requested invoices, all of them where the window's
copy is the only one; and what is applied to a requested invoice is what the two reads together, one
copy of each row, apply to it. -/
theorem settlementLedger_combines (activity : LedgerActivity) (histories : LedgerInvoiceHistories) :
    Combined (invoicesNamedBy activity) histories.payments activity.payments
        (settlementLedger activity histories).payments ∧
      Combined (invoicesNamedBy activity) histories.credits activity.credits
        (settlementLedger activity histories).credits ∧
      ∀ id ∈ invoicesNamedBy activity,
        (settlementLedger activity histories).paymentsTo id =
            ((unionOf histories.payments activity.payments).map fun p => rowSum id p.appliedTo).sum ∧
          (settlementLedger activity histories).creditsTo id =
            ((unionOf histories.credits activity.credits).map fun c => rowSum id c.appliedTo).sum := by
  refine ⟨mergeTrimmed_combined _ _ fun p hp a ha => ?_, mergeTrimmed_combined _ _ fun c hc a ha => ?_,
    fun id hid => ⟨?_, ?_⟩⟩
  · rw [mem_invoicesNamedBy]
    exact and_iff_left (.inl ⟨p, hp, a, ha, rfl⟩)
  · rw [mem_invoicesNamedBy]
    exact and_iff_left (.inr ⟨c, hc, a, ha, rfl⟩)
  · rw [SettlementLedger.paymentsTo_eq]
    exact sum_mergeTrimmed hid histories.payments activity.payments
  · rw [SettlementLedger.creditsTo_eq]
    exact sum_mergeTrimmed hid histories.credits activity.credits

/-- A payment inside the window that pays two invoices. -/
def splitPayment : LedgerPayment :=
  ⟨.qbo, "p1", "c1", "2026-02-01", centsOf 9000, none, none, [⟨"i1", centsOf 5000⟩, ⟨"i2", centsOf 4000⟩]⟩

/-- A history that has the payment with one of its two applications drops the other: `i2` was asked for,
the window applied $40.00 to it, and the joined ledger applies nothing. -/
theorem history_copy_drops_application :
    let activity : LedgerActivity := ⟨[splitPayment], []⟩
    let histories : LedgerInvoiceHistories :=
      ⟨[], [{ splitPayment with appliedTo := [⟨"i1", centsOf 5000⟩] }], []⟩
    ("i2" : Text) ∈ invoicesNamedBy activity ∧ ⟨"i2", centsOf 4000⟩ ∈ splitPayment.appliedTo ∧
      (∀ row ∈ (settlementLedger activity histories).payments, ⟨"i2", centsOf 4000⟩ ∉ row.appliedTo) ∧
      (settlementLedger activity histories).paymentsTo "i2" = 0 := by
  decide

end Recouple
