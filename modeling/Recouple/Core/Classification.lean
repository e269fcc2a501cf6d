import Mathlib
import Recouple.Core.Books
import Recouple.Lib.SortByKey

/-!
# Every invoice is placed once

While the running sums stay in range, `detectShortPays` puts every distinct invoice in exactly one
place: it has a candidate, or it is flagged, or unpaid, or paid in full
(`detectShortPays_classifies`). The flagged ones are the ones an anomaly reports beyond a negative
balance or a currency.
-/

namespace Recouple
open Js FirstSeen KeyedFold

/-! ## The order of the list -/

/-- What candidates are ordered by: gap descending, then number, then external id. -/
def sortKey (c : ShortPayCandidate) : Int ×ₗ List Nat ×ₗ List Nat :=
  toLex (-c.gapCents.val, toLex (codeUnits c.invoiceNumber, codeUnits c.invoiceExternalId))

theorem sortKey_le {a b : ShortPayCandidate} :
    sortKey a ≤ sortKey b ↔ b.gapCents.val < a.gapCents.val ∨ a.gapCents = b.gapCents ∧
      (textLt a.invoiceNumber b.invoiceNumber ∨ a.invoiceNumber = b.invoiceNumber ∧
        (textLt a.invoiceExternalId b.invoiceExternalId ∨ a.invoiceExternalId = b.invoiceExternalId)) := by
  unfold sortKey textLt
  rw [Prod.Lex.toLex_le_toLex, Prod.Lex.toLex_le_toLex, le_iff_lt_or_eq (a := codeUnits _),
    codeUnits_injective.eq_iff, codeUnits_injective.eq_iff, Cents.ext_iff]
  simp only [Int.neg_lt_neg_iff, Int.neg_inj]

theorem candidateLe_iff (a b : ShortPayCandidate) : candidateLe a b ↔ sortKey a ≤ sortKey b := by
  rw [sortKey_le]
  unfold candidateLe compareCandidates
  by_cases hg : a.gapCents = b.gapCents
  · rw [if_neg (by simpa using hg)]
    by_cases hn : a.invoiceNumber = b.invoiceNumber
    · rw [if_neg (by simpa using hn)]
      by_cases hi : a.invoiceExternalId = b.invoiceExternalId
      · simp [hg, hn, hi]
      · by_cases hlt : textLt a.invoiceExternalId b.invoiceExternalId
        · simp [hg, hn, hi, hlt]
        · simp [hg, hn, hi, hlt, textLt_irrefl]
    · rw [if_pos (by simpa using hn)]
      by_cases hlt : textLt a.invoiceNumber b.invoiceNumber
      · simp [hg, hlt]
      · simp [hg, hn, hlt]
  · rw [if_pos (by simpa using hg)]
    have hne : a.gapCents.val ≠ b.gapCents.val := fun h => hg (Cents.ext h)
    simp only [hg, false_and, or_false]
    omega

namespace SettlementLedger

variable {L : SettlementLedger} {r : ShortPayReport}

/-- No invoice has two candidates, and the list is in strictly increasing order of `sortKey`. -/
theorem candidates_sorted (h : L.detectShortPays = .ok r) :
    (r.candidates.map (·.invoiceExternalId)).Nodup ∧ (r.candidates.map sortKey).Pairwise (· < ·) := by
  have hids : (((ledgerOf L.invoices).filterMap fun i => assess i (L.touches i.externalId)).map
      (·.invoiceExternalId)).Nodup := by
    refine (List.Sublist.nodup ?_ (nodup_ledgerOf L.invoices))
    induction ledgerOf L.invoices with
    | nil => simp
    | cons i l ih =>
      rw [List.filterMap_cons, List.map_cons]
      cases ha : assess i (L.touches i.externalId) with
      | none => exact ih.cons _
      | some c =>
        obtain ⟨-, rfl⟩ := assess_some.1 ha
        exact ih.cons_cons _
  have hkeys : (((ledgerOf L.invoices).filterMap fun i => assess i (L.touches i.externalId)).map
      sortKey).Nodup := by
    refine List.Nodup.of_map (fun k => (ofLex (ofLex k).2).2) ?_
    have hunits := hids.map codeUnits_injective
    rw [List.map_map] at hunits ⊢
    exact hunits
  rw [(detectShortPays_ok h).1]
  refine ⟨((List.perm_insertionSort _ _).map _).nodup_iff.2 hids, ?_⟩
  exact SortByKey.pairwise_lt_insertionSort candidateLe_iff hkeys

/-! ## Where each invoice is placed -/

/-- What the ledger's payments put against an invoice: every application of every payment row. -/
def paymentsTo (L : SettlementLedger) (id : Text) : Int :=
  (((L.payments.flatMap (·.appliedTo)).filter fun a => a.invoiceExternalId = id).map
    (·.amountCents.val)).sum

/-- What its credits put against it. -/
def creditsTo (L : SettlementLedger) (id : Text) : Int :=
  (((L.credits.flatMap (·.appliedTo)).filter fun a => a.invoiceExternalId = id).map
    (·.amountCents.val)).sum

theorem paymentsTo_eq (L : SettlementLedger) (id : Text) :
    L.paymentsTo id = (L.payments.map fun p => rowSum id p.appliedTo).sum := by
  unfold paymentsTo
  induction L.payments with
  | nil => rfl
  | cons p ps ih =>
    rw [List.flatMap_cons, List.filter_append, List.map_append, List.sum_append, ih, List.map_cons,
      List.sum_cons]
    rfl

theorem creditsTo_eq (L : SettlementLedger) (id : Text) :
    L.creditsTo id = (L.credits.map fun c => rowSum id c.appliedTo).sum := by
  unfold creditsTo
  induction L.credits with
  | nil => rfl
  | cons c cs ih =>
    rw [List.flatMap_cons, List.filter_append, List.map_append, List.sum_append, ih, List.map_cons,
      List.sum_cons]
    rfl

theorem touches_eq (L : SettlementLedger) (id : Text) :
    L.touches id =
      L.payments.flatMap (fun p => (p.appliedTo.filter fun a => a.invoiceExternalId = id).map
        fun a => Touch.paid a.amountCents p.reference p.memo p.receivedOn) ++
      L.credits.flatMap (fun c => (c.appliedTo.filter fun a => a.invoiceExternalId = id).map
        fun a => Touch.credited a.amountCents c.memo) := by
  simp only [touches, turns, List.flatMap_append, List.flatMap_map, List.filter_append,
    List.filter_flatMap, List.map_append, List.map_flatMap, Row.turns, List.filter_map, List.map_map]
  rfl

theorem paid_eq_zero : ∀ {l : List Touch}, (∀ t ∈ l, t.paidCents = 0) → paid l = 0
  | [], _ => rfl
  | t :: l, h => by
    rw [List.forall_mem_cons] at h
    rw [paid, List.map_cons, List.sum_cons, h.1, ← paid, paid_eq_zero h.2]
    rfl

theorem credited_eq_zero : ∀ {l : List Touch}, (∀ t ∈ l, t.creditedCents = 0) → credited l = 0
  | [], _ => rfl
  | t :: l, h => by
    rw [List.forall_mem_cons] at h
    rw [credited, List.map_cons, List.sum_cons, h.1, ← credited, credited_eq_zero h.2]
    rfl

theorem paid_touches (L : SettlementLedger) (id : Text) : paid (L.touches id) = L.paymentsTo id := by
  rw [touches_eq, paid_append, paid_eq_zero (l := List.flatMap _ L.credits), Int.add_zero]
  · simp only [paid, paymentsTo, List.filter_flatMap, List.map_flatMap, List.map_map]
    rfl
  · simp only [List.mem_flatMap, List.mem_map]
    rintro t ⟨c, -, a, -, rfl⟩
    rfl

theorem credited_touches (L : SettlementLedger) (id : Text) :
    credited (L.touches id) = L.creditsTo id := by
  rw [touches_eq, credited_append, credited_eq_zero (l := List.flatMap _ L.payments), Int.zero_add]
  · simp only [credited, creditsTo, List.filter_flatMap, List.map_flatMap, List.map_map]
    rfl
  · simp only [List.mem_flatMap, List.mem_map]
    rintro t ⟨p, -, a, -, rfl⟩
    rfl

/-- An application of the ledger that names the invoice, and whether it is a payment's. -/
theorem mem_touches {L : SettlementLedger} {id : Text} {t : Touch} :
    t ∈ L.touches id ↔
      (∃ p ∈ L.payments, ∃ a ∈ p.appliedTo, a.invoiceExternalId = id ∧
        t = .paid a.amountCents p.reference p.memo p.receivedOn) ∨
      ∃ c ∈ L.credits, ∃ a ∈ c.appliedTo, a.invoiceExternalId = id ∧
        t = .credited a.amountCents c.memo := by
  simp only [touches_eq, List.mem_append, List.mem_flatMap, List.mem_map, List.mem_filter,
    decide_eq_true_eq, and_assoc, eq_comm (a := t)]

end SettlementLedger

/-- The books of trustworthy rows hold no negative sum. -/
theorem sums_nonneg {ts : List Touch} (h : ¬ Untrustworthy ts) : 0 ≤ paid ts ∧ 0 ≤ credited ts := by
  induction ts with
  | nil => exact ⟨le_refl _, le_refl _⟩
  | cons t ts ih =>
    have ht : 0 ≤ t.amount.val := by
      by_contra hlt
      exact h ⟨t, by simp, by omega⟩
    obtain ⟨hp, hc⟩ := ih fun ⟨u, hu, hlt⟩ => h ⟨u, by simp [hu], hlt⟩
    rw [show t :: ts = [t] ++ ts from rfl, paid_append, credited_append, paid_singleton,
      credited_singleton]
    cases t with
    | paid a r m d => exact ⟨Int.add_nonneg ht hp, by simpa [Touch.creditedCents] using hc⟩
    | credited a m => exact ⟨by simpa [Touch.paidCents] using hp, Int.add_nonneg ht hc⟩

theorem exists_positive_of_paid_pos {ts : List Touch} (h : 0 < paid ts) : ∃ t ∈ ts, 0 < t.paidCents := by
  induction ts with
  | nil => simp at h
  | cons t ts ih =>
    rw [show t :: ts = [t] ++ ts from rfl, paid_append, paid_singleton] at h
    by_cases ht : 0 < t.paidCents
    · exact ⟨t, by simp, ht⟩
    · obtain ⟨u, hu, hpos⟩ := ih (by omega)
      exact ⟨u, by simp [hu], hpos⟩

/-- The four places an invoice can be in. -/
inductive Standing | shortPaid | flagged | unpaid | paidInFull
deriving DecidableEq

/-- The report places the invoice there: it lists a candidate for it, or the invoice is negative or
over-applied, or nothing was paid, or all of it was. -/
def ShortPayReport.Places (r : ShortPayReport) (invoice : LedgerInvoice) (ts : List Touch) :
    Standing → Prop
  | .shortPaid => ∃ c ∈ r.candidates, c.invoiceExternalId = invoice.externalId
  | .flagged => Flagged invoice ts
  | .unpaid => Unpaid invoice ts
  | .paidInFull => PaidInFull invoice ts

namespace SettlementLedger

variable {L : SettlementLedger} {r : ShortPayReport}

theorem places_shortPaid (h : L.detectShortPays = .ok r) {invoice : LedgerInvoice}
    (hi : invoice ∈ ledgerOf L.invoices) :
    r.Places invoice (L.touches invoice.externalId) .shortPaid ↔
      PaidShort invoice (L.touches invoice.externalId) := by
  constructor
  · rintro ⟨c, hc, hid⟩
    obtain ⟨invoice', hi', hs, rfl⟩ := (mem_candidates h).1 hc
    obtain rfl : invoice' = invoice := eq_of_mem_ledgerOf hi' hi hid
    exact hs
  · intro hs
    exact ⟨_, (mem_candidates h).2 ⟨invoice, hi, hs, rfl⟩, rfl⟩

theorem places_once (h : L.detectShortPays = .ok r) {invoice : LedgerInvoice}
    (hi : invoice ∈ ledgerOf L.invoices) :
    ∃! s, r.Places invoice (L.touches invoice.externalId) s := by
  have hshort := places_shortPaid h hi
  by_cases hf : Flagged invoice (L.touches invoice.externalId)
  · refine ⟨.flagged, hf, ?_⟩
    rintro (_ | _ | _ | _) hs
    · exact absurd hf (hshort.1 hs).1
    · rfl
    · exact absurd hf hs.1
    · exact absurd hf hs.1
  · have hu : ¬ Untrustworthy (L.touches invoice.externalId) := fun hu => hf (.inl hu)
    obtain ⟨hp, hc⟩ := sums_nonneg hu
    have hle : paid (L.touches invoice.externalId) + credited (L.touches invoice.externalId) ≤
        invoice.totalCents.val := by
      by_contra hlt
      exact hf (.inr (.inr (by omega)))
    rcases hp.eq_or_lt with h0 | hpos
    · refine ⟨.unpaid, ⟨hf, h0.symm⟩, ?_⟩
      rintro (_ | _ | _ | _) hs
      · have := (hshort.1 hs).2.1; omega
      · exact absurd hs hf
      · rfl
      · have := hs.2.1; omega
    · rcases (show paid (L.touches invoice.externalId) ≤ invoice.totalCents.val by omega).eq_or_lt
        with hfull | hless
      · refine ⟨.paidInFull, ⟨hf, hpos, hfull⟩, ?_⟩
        rintro (_ | _ | _ | _) hs
        · have := (hshort.1 hs).2.2; omega
        · exact absurd hs hf
        · have := hs.2; omega
        · rfl
      · refine ⟨.shortPaid, hshort.2 ⟨hf, hpos, hless⟩, ?_⟩
        rintro (_ | _ | _ | _) hs
        · rfl
        · exact absurd hs hf
        · have := hs.2; omega
        · have := hs.2.2; omega

/-! ## Which invoices are reported -/

theorem mem_turns {id : Text} {t : Touch} (L : SettlementLedger) :
    t ∈ L.touches id ↔ ∃ e ∈ L.turns, e.names = id ∧ e.touch = t := by
  simp only [touches, List.mem_map, List.mem_filter, decide_eq_true_eq, and_assoc]

theorem touch_amount (e : Applied) : e.touch.amount = e.application.amountCents := by
  unfold Applied.touch
  cases e.row <;> rfl

theorem mem_invoiceAnomalies {currency : Option Text} {invoice : LedgerInvoice} {a : LedgerAnomaly} :
    a ∈ invoiceAnomalies currency invoice ↔
      (invoice.totalCents.val < 0 ∧ a = negativeAmount invoice "total" invoice.totalCents) ∨
      (invoice.balanceCents.val < 0 ∧ a = negativeAmount invoice "balance" invoice.balanceCents) ∨
      ∃ c, currency = some c ∧ invoice.currency ≠ c ∧ a = currencyMismatch invoice c := by
  unfold invoiceAnomalies
  rw [List.mem_append, List.mem_append, or_assoc]
  refine or_congr ?_ (or_congr ?_ ?_)
  · split <;> simp_all
  · split <;> simp_all
  · cases currency with
    | none => simp
    | some c => by_cases hc : invoice.currency = c <;> simp [hc]

theorem mem_turnAnomalies {known : Bool} {e : Applied} {a : LedgerAnomaly} :
    a ∈ turnAnomalies known e ↔
      (e.application.amountCents.val < 0 ∧ a = e.anomaly .negative_amount e.detail) ∨
      (known = false ∧ a = e.anomaly .application_to_unknown_invoice
        (e.detail ++ ", which the ledger did not return".toList)) := by
  unfold turnAnomalies
  rw [List.mem_append]
  refine or_congr ?_ ?_
  · split <;> simp_all
  · cases known <;> simp

/-- A flagged invoice is reported as negative or over-applied. -/
theorem anomaly_of_flagged (h : L.detectShortPays = .ok r) {invoice : LedgerInvoice}
    (hi : invoice ∈ ledgerOf L.invoices) (hf : Flagged invoice (L.touches invoice.externalId)) :
    ∃ a ∈ r.anomalies, a.invoiceExternalId = invoice.externalId ∧
      (a.kind = .negative_amount ∨ a.kind = .overapplied) := by
  rw [(detectShortPays_ok h).2.1]
  unfold anomalies
  by_cases hu : Untrustworthy (L.touches invoice.externalId)
  · obtain ⟨t, ht, hlt⟩ := hu
    obtain ⟨e, he, hn, rfl⟩ := L.mem_turns.1 ht
    rw [touch_amount] at hlt
    exact ⟨_, List.mem_append_left _ (List.mem_append_right _
      (List.mem_flatMap.2 ⟨e, he, mem_turnAnomalies.2 (.inl ⟨hlt, rfl⟩)⟩)), hn, .inl rfl⟩
  · by_cases ht : invoice.totalCents.val < 0
    · exact ⟨_, List.mem_append_left _ (List.mem_append_left _
        (List.mem_flatMap.2 ⟨invoice, hi, mem_invoiceAnomalies.2 (.inl ⟨ht, rfl⟩)⟩)), rfl, .inl rfl⟩
    · have hover : overapplied? invoice (L.touches invoice.externalId) =
          some (overappliedAnomaly invoice (centsOf (paid (L.touches invoice.externalId) +
            credited (L.touches invoice.externalId)))) := by
        refine if_pos ⟨hu, by omega, ?_⟩
        rcases hf with hf | hf | hf
        · exact absurd hf hu
        · exact absurd hf ht
        · exact hf
      exact ⟨_, List.mem_append_right _ (List.mem_filterMap.2 ⟨invoice, hi, hover⟩), rfl, .inr rfl⟩

/-- An invoice that is not flagged is reported for its currency or its balance alone. -/
theorem anomaly_of_not_flagged (h : L.detectShortPays = .ok r) {invoice : LedgerInvoice}
    (hi : invoice ∈ ledgerOf L.invoices) (hf : ¬ Flagged invoice (L.touches invoice.externalId))
    {a : LedgerAnomaly} (ha : a ∈ r.anomalies) (hid : a.invoiceExternalId = invoice.externalId) :
    a.kind = .currency_mismatch ∨ a.kind = .negative_amount ∧ invoice.balanceCents.val < 0 := by
  rw [(detectShortPays_ok h).2.1] at ha
  unfold anomalies at ha
  rcases List.mem_append.1 ha with ha | ha
  · rcases List.mem_append.1 ha with ha | ha
    · obtain ⟨invoice', hi', ha⟩ := List.mem_flatMap.1 ha
      rcases mem_invoiceAnomalies.1 ha with ⟨ht, rfl⟩ | ⟨hb, rfl⟩ | ⟨c, -, -, rfl⟩
      · obtain rfl : invoice' = invoice := eq_of_mem_ledgerOf hi' hi hid
        exact absurd (.inr (.inl ht)) hf
      · obtain rfl : invoice' = invoice := eq_of_mem_ledgerOf hi' hi hid
        exact .inr ⟨rfl, hb⟩
      · exact .inl rfl
    · obtain ⟨e, he, ha⟩ := List.mem_flatMap.1 ha
      rcases mem_turnAnomalies.1 ha with ⟨hlt, rfl⟩ | ⟨hunknown, rfl⟩
      · refine absurd (.inl ⟨e.touch, L.mem_turns.2 ⟨e, he, hid, rfl⟩, ?_⟩) hf
        rwa [touch_amount]
      · have hn : e.names = invoice.externalId := hid
        rw [hn, lookup_isSome hi] at hunknown
        cases hunknown
  · obtain ⟨invoice', hi', ha⟩ := List.mem_filterMap.1 ha
    unfold overapplied? at ha
    split at ha
    · rename_i hover
      cases ha
      obtain rfl : invoice' = invoice := eq_of_mem_ledgerOf hi' hi hid
      exact absurd (.inr (.inr hover.2.2)) hf
    · cases ha

/-! ## The candidates -/

end SettlementLedger

/-- What a candidate says of its invoice is what the rows of the ledger add up to. -/
structure ShortPayCandidate.Exact (c : ShortPayCandidate) (L : SettlementLedger)
    (invoice : LedgerInvoice) : Prop where
  invoiceExternalId : c.invoiceExternalId = invoice.externalId
  invoiceTotalCents : c.invoiceTotalCents = invoice.totalCents
  appliedPaymentsCents : c.appliedPaymentsCents.val = L.paymentsTo invoice.externalId
  /-- Something was paid. -/
  positive : ∃ p ∈ L.payments, ∃ a ∈ p.appliedTo,
    a.invoiceExternalId = invoice.externalId ∧ 0 < a.amountCents.val
  gapCents : c.gapCents.val = invoice.totalCents.val - L.paymentsTo invoice.externalId
  gap_pos : 0 < c.gapCents.val
  appliedCreditsCents : c.appliedCreditsCents.val = L.creditsTo invoice.externalId
  credits_le : c.appliedCreditsCents.val ≤ c.gapCents.val
  /-- The balance decides before the credits do. -/
  gapStatus : c.gapStatus =
    if invoice.balanceCents = c.gapCents then .open
    else if c.appliedCreditsCents = c.gapCents then .credited
    else .mixed

namespace SettlementLedger

variable {L : SettlementLedger} {r : ShortPayReport}

theorem candidateOf_exact {invoice : LedgerInvoice} (hr : RunsInRange (L.touches invoice.externalId))
    (hs : PaidShort invoice (L.touches invoice.externalId)) :
    (candidateOf invoice (L.touches invoice.externalId)).Exact L invoice := by
  obtain ⟨hf, hpos, hless⟩ := hs
  have hrange := hr _ (List.prefix_refl _)
  have hle : paid (L.touches invoice.externalId) + credited (L.touches invoice.externalId) ≤
      invoice.totalCents.val := by
    by_contra hlt
    exact hf (.inr (.inr (by omega)))
  have hu := invoice.totalCents.upper
  have hgap : (centsOf (invoice.totalCents.val - paid (L.touches invoice.externalId))).val =
      invoice.totalCents.val - paid (L.touches invoice.externalId) :=
    centsOf_val (by unfold InRange; unfold maxSafe at hu ⊢; omega)
  have hp := centsOf_val hrange.1
  have hc := centsOf_val hrange.2
  refine ⟨rfl, rfl, hp.trans (paid_touches L _), ?_, ?_, ?_, hc.trans (credited_touches L _), ?_, ?_⟩
  · obtain ⟨t, ht, hpay⟩ := exists_positive_of_paid_pos hpos
    rcases mem_touches.1 ht with ⟨p, hp, a, ha, hid, rfl⟩ | ⟨c, -, a, -, -, rfl⟩
    · exact ⟨p, hp, a, ha, hid, hpay⟩
    · exact absurd hpay (by simp [Touch.paidCents])
  · rw [← paid_touches]; exact hgap
  · simp only [candidateOf, hgap]; omega
  · simp only [candidateOf, hgap, hc]; omega
  · simp only [candidateOf, Cents.ext_iff, hgap, hc]
    congr 1
    by_cases hcov : invoice.totalCents.val - paid (L.touches invoice.externalId) ≤
        credited (L.touches invoice.externalId)
    · rw [if_pos hcov, if_pos (by omega)]
    · rw [if_neg hcov, if_neg (by omega)]

/-- **Short-pay classification is exact and exhaustive.** While the running sums stay in range every
distinct invoice is placed once, the flagged ones are reported, and every candidate says exactly what
the rows add up to. -/
theorem detectShortPays_classifies (L : SettlementLedger) (h : L.AllInRange) :
    ∃ r, L.detectShortPays = .ok r ∧
      (∀ invoice ∈ ledgerOf L.invoices,
        (∃! s, r.Places invoice (L.touches invoice.externalId) s) ∧
        (r.Places invoice (L.touches invoice.externalId) .flagged →
          ∃ a ∈ r.anomalies, a.invoiceExternalId = invoice.externalId ∧
            (a.kind = .negative_amount ∨ a.kind = .overapplied)) ∧
        (¬ r.Places invoice (L.touches invoice.externalId) .flagged →
          ∀ a ∈ r.anomalies, a.invoiceExternalId = invoice.externalId →
            a.kind = .currency_mismatch ∨ a.kind = .negative_amount ∧ invoice.balanceCents.val < 0)) ∧
      (∀ c ∈ r.candidates, ∃ invoice ∈ ledgerOf L.invoices, c.Exact L invoice) ∧
      (r.candidates.map (·.invoiceExternalId)).Nodup ∧
      (r.candidates.map sortKey).Pairwise (· < ·) := by
  obtain ⟨r, hr⟩ := L.detectShortPays_returns.2 h
  refine ⟨r, hr, fun invoice hi => ⟨places_once hr hi, fun hf => anomaly_of_flagged hr hi hf,
    fun hf a ha hid => anomaly_of_not_flagged hr hi hf ha hid⟩, fun c hc => ?_, candidates_sorted hr⟩
  obtain ⟨invoice, hi, hs, rfl⟩ := (mem_candidates hr).1 hc
  exact ⟨invoice, hi, candidateOf_exact (h invoice hi).1 hs⟩

end SettlementLedger

/-- An invoice for $100.00 of which $92.00 was paid, with this much still open on it. -/
def partPaid (balance : Int) : SettlementLedger where
  invoices := [⟨.qbo, "i1", "1001", "c1", "Acme", "2026-01-05", none, centsOf 10000, centsOf balance, "USD"⟩]
  payments := [⟨.qbo, "p1", "c1", "2026-02-01", centsOf 9200, some "CHK-1", none, [⟨"i1", centsOf 9200⟩]⟩]
  credits := []

instance (ts : List Touch) : Decidable (RunsInRange ts) :=
  decidable_of_iff (∀ p ∈ ts.inits, InRange (paid p) ∧ InRange (credited p))
    ⟨fun h p hp => h p ((List.mem_inits p ts).2 hp), fun h p hp => h p ((List.mem_inits p ts).1 hp)⟩

instance (invoice : LedgerInvoice) (ts : List Touch) : Decidable (BooksInRange invoice ts) :=
  inferInstanceAs (Decidable (_ ∧ (_ → _ → _)))

instance (L : SettlementLedger) : Decidable L.AllInRange :=
  inferInstanceAs (Decidable (∀ invoice ∈ ledgerOf L.invoices, _))

/-- One invoice paid short by two cheques, one paid and credited beyond its total, one paid in full, and a credit for an
invoice that is not there. -/
def severalInvoices : SettlementLedger where
  invoices :=
    [⟨.qbo, "i1", "1001", "c1", "Acme", "2026-01-05", none, centsOf 10000, centsOf 800, "USD"⟩,
      ⟨.qbo, "i2", "1002", "c1", "Acme", "2026-01-06", none, centsOf 10000, centsOf 0, "USD"⟩,
      ⟨.qbo, "i3", "1003", "c1", "Acme", "2026-01-07", none, centsOf 5000, centsOf 0, "USD"⟩]
  payments :=
    [⟨.qbo, "p1", "c1", "2026-02-01", centsOf 11000, some "CHK-1", none, [⟨"i1", centsOf 5000⟩, ⟨"i2", centsOf 6000⟩]⟩,
      ⟨.qbo, "p2", "c1", "2026-02-02", centsOf 9200, some "CHK-2", none, [⟨"i1", centsOf 4200⟩, ⟨"i3", centsOf 5000⟩]⟩]
  credits := [⟨.qbo, "m1", "c1", "2026-02-03", centsOf 5500, none, [⟨"i2", centsOf 5000⟩, ⟨"i9", centsOf 500⟩]⟩]

theorem severalInvoices_classified :
    ∃ r, severalInvoices.detectShortPays = .ok r ∧
      (∀ invoice ∈ ledgerOf severalInvoices.invoices,
        (∃! s, r.Places invoice (severalInvoices.touches invoice.externalId) s) ∧
        (r.Places invoice (severalInvoices.touches invoice.externalId) .flagged →
          ∃ a ∈ r.anomalies, a.invoiceExternalId = invoice.externalId ∧
            (a.kind = .negative_amount ∨ a.kind = .overapplied)) ∧
        (¬ r.Places invoice (severalInvoices.touches invoice.externalId) .flagged →
          ∀ a ∈ r.anomalies, a.invoiceExternalId = invoice.externalId →
            a.kind = .currency_mismatch ∨ a.kind = .negative_amount ∧ invoice.balanceCents.val < 0)) ∧
      (∀ c ∈ r.candidates, ∃ invoice ∈ ledgerOf severalInvoices.invoices, c.Exact severalInvoices invoice) ∧
      (r.candidates.map (·.invoiceExternalId)).Nodup ∧
      (r.candidates.map sortKey).Pairwise (· < ·) :=
  SettlementLedger.detectShortPays_classifies severalInvoices (by decide)

/-- The gap and the credits do not decide the status: the same gap, with nothing credited, is open
where the balance still holds it and mixed where the balance is closed. -/
theorem gapStatus_not_of_credits :
    ¬ ∃ f : Cents → Cents → GapStatus, ∀ (L : SettlementLedger) (r : ShortPayReport),
      L.AllInRange → L.detectShortPays = .ok r →
        ∀ c ∈ r.candidates, c.gapStatus = f c.gapCents c.appliedCreditsCents := by
  rintro ⟨f, hf⟩
  have status : ∀ b : Int, (partPaid b).AllInRange → ∀ invoice ∈ ledgerOf (partPaid b).invoices,
      PaidShort invoice ((partPaid b).touches invoice.externalId) →
        (candidateOf invoice ((partPaid b).touches invoice.externalId)).gapStatus =
          f (candidateOf invoice ((partPaid b).touches invoice.externalId)).gapCents
            (candidateOf invoice ((partPaid b).touches invoice.externalId)).appliedCreditsCents := by
    intro b hb invoice hi hs
    obtain ⟨r, hr⟩ := (partPaid b).detectShortPays_returns.2 hb
    exact hf _ r hb hr _ ((SettlementLedger.mem_candidates hr).2 ⟨invoice, hi, hs, rfl⟩)
  have hopen := status 800 (by decide) _ (List.mem_singleton.2 rfl) (by decide)
  have hmixed := status 0 (by decide) _ (List.mem_singleton.2 rfl) (by decide)
  have hsame : GapStatus.open = GapStatus.mixed := hopen.trans hmixed.symm
  cases hsame

end Recouple
