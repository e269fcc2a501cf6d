import Recouple.Core.Classification

/-!
# One invoice at a time

`short-pay.ts` says of `detectShortPays` that it never throws and that what does not add up is reported
while "the rest of the ledger is still examined". A candidate does depend on the rows that name its
invoice and on nothing else (`candidateFor_naming`), as long as the run returns; but the run does not
return as soon as the running sums of any invoice leave the safe-integer range, and then every
candidate is lost with it. So the run is total and local exactly on ledgers whose running sums all
stay in range (`detectShortPays_total_local`).
-/

namespace Recouple
open Js FirstSeen KeyedFold

namespace SettlementLedger

/-- The rows that name one invoice, less what they say of others. -/
def naming (L : SettlementLedger) (id : Text) : SettlementLedger where
  invoices := L.invoices.filter fun invoice => invoice.externalId = id
  payments :=
    (L.payments.map fun p => { p with appliedTo := p.appliedTo.filter fun a => a.invoiceExternalId = id }).filter
      fun p => !p.appliedTo.isEmpty
  credits :=
    (L.credits.map fun c => { c with appliedTo := c.appliedTo.filter fun a => a.invoiceExternalId = id }).filter
      fun c => !c.appliedTo.isEmpty

theorem flatMap_filter_of_nil {α β : Type} {f : α → List β} {p : α → Bool} :
    ∀ {l : List α}, (∀ a ∈ l, p a = false → f a = []) → (l.filter p).flatMap f = l.flatMap f
  | [], _ => rfl
  | a :: l, h => by
    rw [List.forall_mem_cons] at h
    by_cases ha : p a = true
    · rw [List.filter_cons_of_pos ha, List.flatMap_cons, List.flatMap_cons, flatMap_filter_of_nil h.2]
    · rw [List.filter_cons_of_neg ha, List.flatMap_cons, h.1 (by simpa using ha),
        flatMap_filter_of_nil h.2, List.nil_append]

theorem touches_naming (L : SettlementLedger) (id : Text) : (L.naming id).touches id = L.touches id := by
  rw [touches_eq, touches_eq]
  congr 1
  · rw [naming, flatMap_filter_of_nil, List.flatMap_map]
    · simp only [List.filter_filter, Bool.and_self]
    · intro p _ hp
      rw [Bool.not_eq_false', List.isEmpty_iff] at hp
      rw [hp]
      rfl
  · rw [naming, flatMap_filter_of_nil, List.flatMap_map]
    · simp only [List.filter_filter, Bool.and_self]
    · intro c _ hc
      rw [Bool.not_eq_false', List.isEmpty_iff] at hc
      rw [hc]
      rfl

theorem lookup_ledgerOf (invoices : List LedgerInvoice) (id : Text) :
    lookup (ledgerOf invoices) id = invoices.find? fun invoice => invoice.externalId = id :=
  find_firstBy _ invoices id

theorem lookup_naming (L : SettlementLedger) (id : Text) :
    lookup (ledgerOf (L.naming id).invoices) id = lookup (ledgerOf L.invoices) id := by
  rw [lookup_ledgerOf, lookup_ledgerOf]
  simp [naming, List.find?_filter]

/-- What the rows that name an invoice say alone is what they say among all the others. -/
theorem candidateFor_naming {L : SettlementLedger} (h : L.AllInRange) (id : Text) :
    L.candidateFor id = (L.naming id).candidateFor id := by
  have hone : (L.naming id).AllInRange := by
    intro invoice hi
    have hid : invoice.externalId = id := by
      have := mem_of_mem_firstBy _ hi
      simpa using (List.mem_filter.1 this).2
    subst hid
    have hl : lookup (ledgerOf L.invoices) invoice.externalId = some invoice := by
      rw [← lookup_naming, lookup_eq_some]; exact ⟨hi, rfl⟩
    rw [touches_naming]
    exact h invoice (lookup_eq_some.1 hl).1
  rw [candidateFor_ok h, candidateFor_ok hone, lookup_naming, touches_naming]

/-- **Total and local, exactly when all sums stay in range.** Two ledgers are both read, and every
invoice that the same rows name in both has the same candidate in both, if and only if no invoice's
running sums leave the safe-integer range in either. -/
theorem detectShortPays_total_local (L L' : SettlementLedger) :
    ((∃ r, L.detectShortPays = .ok r) ∧ (∃ r, L'.detectShortPays = .ok r) ∧
      ∀ id, L.naming id = L'.naming id → L.candidateFor id = L'.candidateFor id) ↔
    L.AllInRange ∧ L'.AllInRange := by
  rw [detectShortPays_returns, detectShortPays_returns]
  constructor
  · rintro ⟨h, h', -⟩
    exact ⟨h, h'⟩
  · rintro ⟨h, h'⟩
    refine ⟨h, h', fun id hn => ?_⟩
    rw [candidateFor_naming h, candidateFor_naming h', hn]

end SettlementLedger

/-- `partPaid`, and beside it an invoice that two payments of `Number.MAX_SAFE_INTEGER` cents name. -/
def overflowing : SettlementLedger where
  invoices := (partPaid 800).invoices ++
    [⟨.qbo, "i2", "1002", "c1", "Acme", "2026-01-06", none, centsOf 5000, centsOf 5000, "USD"⟩]
  payments := (partPaid 800).payments ++
    [⟨.qbo, "p2", "c1", "2026-02-02", centsOf maxSafe, none, none, [⟨"i2", centsOf maxSafe⟩]⟩,
     ⟨.qbo, "p3", "c1", "2026-02-03", centsOf maxSafe, none, none, [⟨"i2", centsOf maxSafe⟩]⟩]
  credits := []

/-- The bad invoice `i2` loses the read: `i1` has a candidate on its own rows and none in the ledger. -/
theorem overflowing_loses_the_read :
    overflowing.detectShortPays = .error (.outOfRange 18014398509481982) ∧
      ∃ c, (overflowing.naming "i1").candidateFor "i1" = .ok (some c) := by
  refine ⟨by decide, ?_⟩
  have hsome : ((lookup (ledgerOf (overflowing.naming "i1").invoices) "i1").bind
      fun invoice => assess invoice ((overflowing.naming "i1").touches "i1")).isSome = true := by decide
  obtain ⟨c, hc⟩ := Option.isSome_iff_exists.1 hsome
  exact ⟨c, by rw [SettlementLedger.candidateFor_ok (by decide), hc]⟩

end Recouple
