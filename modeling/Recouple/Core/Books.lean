import Recouple.Lib.KeyedFold
import Recouple.Core.ShortPay

/-!
# What short-pay detection computes

An invoice's books are the list of what the rows say of it (`touches`): amounts, references, memos and
dates, in the order the rows come, and nothing of any other invoice. On books the question of
short-pay is arithmetic over exact integers: an invoice is flagged, unpaid, paid in full or paid short
(`Standing`), and a short-paid one has one candidate (`assess`).

`detectShortPays` refines this. It returns exactly when every invoice's running sums stay in range
(`detectShortPays_returns`), and then its candidates are the books' (`detectShortPays_candidates`) and
its anomalies are the rows' (`detectShortPays_anomalies`).
-/

namespace Recouple
open Js FirstSeen KeyedFold

/-! ## Books -/

/-- What one application says of the invoice it names. -/
inductive Touch
  | paid (amount : Cents) (reference memo : Option Text) (receivedOn : Text)
  | credited (amount : Cents) (memo : Option Text)
deriving DecidableEq

namespace Touch

def amount : Touch → Cents
  | .paid a _ _ _ => a
  | .credited a _ => a

def paidCents : Touch → Int
  | .paid a _ _ _ => a.val
  | .credited _ _ => 0

def creditedCents : Touch → Int
  | .paid _ _ _ _ => 0
  | .credited a _ => a.val

def reference : Touch → Option Text
  | .paid _ r _ _ => r
  | .credited _ _ => none

def paymentMemo : Touch → Option Text
  | .paid _ _ m _ => m
  | .credited _ _ => none

def creditMemo : Touch → Option Text
  | .paid _ _ _ _ => none
  | .credited _ m => m

def receivedOn : Touch → Option Text
  | .paid _ _ _ d => some d
  | .credited _ _ => none

end Touch

def paid (ts : List Touch) : Int := (ts.map Touch.paidCents).sum

def credited (ts : List Touch) : Int := (ts.map Touch.creditedCents).sum

/-- The latest date a payment was received on. -/
def latest (ts : List Touch) : Option Text := (ts.filterMap Touch.receivedOn).foldl later none

/-- A negative application: the sums mean nothing. -/
def Untrustworthy (ts : List Touch) : Prop := ∃ t ∈ ts, t.amount.val < 0

instance (ts : List Touch) : Decidable (Untrustworthy ts) := inferInstanceAs (Decidable (∃ t ∈ ts, _))

/-- Negative or over-applied: no figure is put on it. -/
def Flagged (invoice : LedgerInvoice) (ts : List Touch) : Prop :=
  Untrustworthy ts ∨ invoice.totalCents.val < 0 ∨ invoice.totalCents.val < paid ts + credited ts

def Unpaid (invoice : LedgerInvoice) (ts : List Touch) : Prop := ¬ Flagged invoice ts ∧ paid ts = 0

def PaidInFull (invoice : LedgerInvoice) (ts : List Touch) : Prop :=
  ¬ Flagged invoice ts ∧ 0 < paid ts ∧ paid ts = invoice.totalCents.val

def PaidShort (invoice : LedgerInvoice) (ts : List Touch) : Prop :=
  ¬ Flagged invoice ts ∧ 0 < paid ts ∧ paid ts < invoice.totalCents.val

instance (invoice ts) : Decidable (Flagged invoice ts) := inferInstanceAs (Decidable (_ ∨ _))
instance (invoice ts) : Decidable (PaidShort invoice ts) := inferInstanceAs (Decidable (_ ∧ _))

/-- An amount known to be in range, as `Cents`. -/
def centsOf (v : Int) : Cents := if h : InRange v then ⟨v, h.1, h.2⟩ else ZERO

theorem centsOf_val {v : Int} (h : InRange v) : (centsOf v).val = v := by simp [centsOf, h]

theorem eq_centsOf {c : Cents} {v : Int} (h : c.val = v) : c = centsOf v := by
  apply Cents.ext
  rw [centsOf_val (h ▸ c.inRange), h]

/-- The candidate of a short-paid invoice. -/
def candidateOf (invoice : LedgerInvoice) (ts : List Touch) : ShortPayCandidate where
  invoiceExternalId := invoice.externalId
  invoiceNumber := invoice.invoiceNumber
  customerExternalId := invoice.customerExternalId
  customerName := invoice.customerName
  invoiceTotalCents := invoice.totalCents
  appliedPaymentsCents := centsOf (paid ts)
  appliedCreditsCents := centsOf (credited ts)
  gapCents := centsOf (invoice.totalCents.val - paid ts)
  gapStatus :=
    if invoice.balanceCents.val = invoice.totalCents.val - paid ts then .open
    else if invoice.totalCents.val - paid ts ≤ credited ts then .credited
    else .mixed
  paymentReferences := dedupeNonEmpty (ts.map Touch.reference)
  paymentMemos := dedupeNonEmpty (ts.map Touch.paymentMemo)
  creditMemos := dedupeNonEmpty (ts.map Touch.creditMemo)
  lastPaymentOn := latest ts

def assess (invoice : LedgerInvoice) (ts : List Touch) : Option ShortPayCandidate :=
  if PaidShort invoice ts then some (candidateOf invoice ts) else none

/-- The anomaly of an over-applied invoice. -/
def overapplied? (invoice : LedgerInvoice) (ts : List Touch) : Option LedgerAnomaly :=
  if ¬ Untrustworthy ts ∧ 0 ≤ invoice.totalCents.val ∧ invoice.totalCents.val < paid ts + credited ts then
    some (overappliedAnomaly invoice (centsOf (paid ts + credited ts)))
  else none

/-- Every running sum of the books stays in range. -/
def RunsInRange (ts : List Touch) : Prop := ∀ p, p <+: ts → InRange (paid p) ∧ InRange (credited p)

/-- ... and so does the total of payments and credits, where it is taken. -/
def BooksInRange (invoice : LedgerInvoice) (ts : List Touch) : Prop :=
  RunsInRange ts ∧
    (¬ Untrustworthy ts → 0 ≤ invoice.totalCents.val → InRange (paid ts + credited ts))

/-! ## The books of a ledger -/

def Applied.touch (e : Applied) : Touch :=
  match e.row with
  | .payment p => .paid e.application.amountCents p.reference p.memo p.receivedOn
  | .credit c => .credited e.application.amountCents c.memo

namespace SettlementLedger

/-- Every turn of pass 2, in order. -/
def turns (L : SettlementLedger) : List Applied :=
  (L.payments.map Row.payment ++ L.credits.map Row.credit).flatMap Row.turns

/-- The books of one invoice. -/
def touches (L : SettlementLedger) (id : Text) : List Touch :=
  (L.turns.filter fun e => e.names = id).map Applied.touch

def detectShortPays (L : SettlementLedger) : Except MoneyError ShortPayReport :=
  Recouple.detectShortPays L.invoices L.payments L.credits

/-- Every invoice's running sums stay in range. -/
def AllInRange (L : SettlementLedger) : Prop :=
  ∀ invoice ∈ ledgerOf L.invoices, BooksInRange invoice (L.touches invoice.externalId)

/-- The anomalies of the three passes. -/
def anomalies (L : SettlementLedger) : List LedgerAnomaly :=
  (ledgerOf L.invoices).flatMap (invoiceAnomalies (dominantCurrency (ledgerOf L.invoices))) ++
    L.turns.flatMap (fun e => turnAnomalies (lookup (ledgerOf L.invoices) e.names).isSome e) ++
    (ledgerOf L.invoices).filterMap (fun invoice => overapplied? invoice (L.touches invoice.externalId))

end SettlementLedger

/-! ## Sums, texts and dates over one more touch -/

@[simp] theorem paid_nil : paid [] = 0 := rfl
@[simp] theorem credited_nil : credited [] = 0 := rfl

@[simp] theorem paid_append (ts us : List Touch) : paid (ts ++ us) = paid ts + paid us := by
  simp [paid]

@[simp] theorem credited_append (ts us : List Touch) :
    credited (ts ++ us) = credited ts + credited us := by simp [credited]

@[simp] theorem paid_singleton (t : Touch) : paid [t] = t.paidCents := by simp [paid]

@[simp] theorem credited_singleton (t : Touch) : credited [t] = t.creditedCents := by simp [credited]

theorem untrustworthy_concat (ts : List Touch) (t : Touch) :
    Untrustworthy (ts ++ [t]) ↔ Untrustworthy ts ∨ t.amount.val < 0 := by
  simp only [Untrustworthy, List.mem_append, List.mem_singleton]
  constructor
  · rintro ⟨u, hu | rfl, h⟩
    · exact .inl ⟨u, hu, h⟩
    · exact .inr h
  · rintro (⟨u, hu, h⟩ | h)
    · exact ⟨u, .inl hu, h⟩
    · exact ⟨t, .inr rfl, h⟩

/-- What is read off rows: one text of each, the blank ones left out. -/
theorem dedupeNonEmpty_append_congr {l l' : List (Option Text)}
    (h : dedupeNonEmpty l = dedupeNonEmpty l') (r : List (Option Text)) :
    dedupeNonEmpty (l ++ r) = dedupeNonEmpty (l' ++ r) := by
  simp only [dedupeNonEmpty, List.filterMap_append, List.filter_append] at h ⊢
  exact firstSeen_append_congr h _

theorem dedupeNonEmpty_concat_of_mem {l : List (Option Text)} {v : Option Text} (h : v ∈ l) :
    dedupeNonEmpty (l ++ [v]) = dedupeNonEmpty l := by
  simp only [dedupeNonEmpty, List.filterMap_append, List.filter_append]
  cases v with
  | none => simp
  | some t =>
    by_cases ht : trim t = []
    · simp [ht]
    · have hm : t ∈ (l.filterMap id).filter fun value => decide (trim value ≠ []) := by
        simpa [ht] using h
      have hv : ([some t].filterMap id).filter (fun value => decide (trim value ≠ [])) = [t] := by
        simp [ht]
      rw [hv, firstSeen_concat, if_pos hm]

/-- A row pushed once leaves the same texts as a row pushed at each of its turns. -/
theorem dedupeNonEmpty_pushOnce {α : Type} [DecidableEq α] (rows : List α) (row : α)
    (f : α → Option Text) :
    dedupeNonEmpty ((pushOnce rows row).map f) = dedupeNonEmpty (rows.map f ++ [f row]) := by
  unfold pushOnce
  split
  · rename_i h
    have hm : row ∈ rows := List.mem_of_getLast? h
    rw [dedupeNonEmpty_concat_of_mem (List.mem_map_of_mem hm)]
  · rw [List.map_append, List.map_singleton]

/-! ## Tallies keep the books -/

/-- The tally says what the touches so far add up to. -/
structure Tallied (ts : List Touch) (tally : InvoiceTally) : Prop where
  payments : tally.paymentsCents.val = paid ts
  credits : tally.creditsCents.val = credited ts
  untrustworthy : tally.untrustworthy = true ↔ Untrustworthy ts
  references : dedupeNonEmpty (tally.payments.map (·.reference)) =
    dedupeNonEmpty (ts.map Touch.reference)
  paymentMemos : dedupeNonEmpty (tally.payments.map (·.memo)) =
    dedupeNonEmpty (ts.map Touch.paymentMemo)
  creditMemos : dedupeNonEmpty (tally.credits.map (·.memo)) =
    dedupeNonEmpty (ts.map Touch.creditMemo)
  last : lastPaymentOn tally.payments = latest ts

theorem tallied_empty : Tallied [] emptyTally :=
  ⟨rfl, rfl, by simp [emptyTally, Untrustworthy], rfl, rfl, rfl, rfl⟩

theorem later_later (last : Option Text) (d : Text) : later (later last d) d = later last d := by
  rcases last with _ | m
  · simp [later, textLt_irrefl]
  · by_cases h : textLt m d
    · simp [later, h, textLt_irrefl]
    · simp [later, h]

theorem lastPaymentOn_append (rows : List LedgerPayment) (p : LedgerPayment) :
    lastPaymentOn (rows ++ [p]) = later (lastPaymentOn rows) p.receivedOn := by simp [lastPaymentOn]

theorem lastPaymentOn_pushOnce (rows : List LedgerPayment) (p : LedgerPayment) :
    lastPaymentOn (pushOnce rows p) = later (lastPaymentOn rows) p.receivedOn := by
  unfold pushOnce
  split
  · rename_i h
    obtain ⟨init, rfl⟩ := List.getLast?_eq_some_iff.1 h
    rw [lastPaymentOn_append, later_later]
  · exact lastPaymentOn_append rows p

theorem latest_concat (ts : List Touch) (t : Touch) :
    latest (ts ++ [t]) = t.receivedOn.elim (latest ts) (later (latest ts)) := by
  unfold latest
  rw [List.filterMap_append, List.foldl_append]
  cases t <;> rfl

theorem or_decide_iff {b : Bool} {P Q : Prop} [Decidable Q] (h : b = true ↔ P) :
    (b || decide Q) = true ↔ P ∨ Q := by simp [h]

/-- One turn adds its touch to the books. -/
theorem Tallied.add {ts : List Touch} {tally tally' : InvoiceTally} {e : Applied}
    (h : Tallied ts tally) (ha : tally.add e = .ok tally') : Tallied (ts ++ [e.touch]) tally' := by
  obtain ⟨row, application⟩ := e
  cases row with
  | payment p =>
    obtain ⟨sum, hsum, ha⟩ := bind_ok.1 ha
    cases ha
    have hs := addCents_ok.1 hsum
    refine ⟨?_, ?_, ?_, ?_, ?_, ?_, ?_⟩
    · simpa [Applied.touch, Touch.paidCents, h.payments] using hs
    · simpa [Applied.touch, Touch.creditedCents] using h.credits
    · rw [untrustworthy_concat]; exact or_decide_iff h.untrustworthy
    · rw [dedupeNonEmpty_pushOnce, List.map_append]
      exact dedupeNonEmpty_append_congr h.references _
    · rw [dedupeNonEmpty_pushOnce, List.map_append]
      exact dedupeNonEmpty_append_congr h.paymentMemos _
    · rw [h.creditMemos, List.map_append]
      simp [dedupeNonEmpty, Applied.touch, Touch.creditMemo]
    · rw [lastPaymentOn_pushOnce, latest_concat, h.last]; rfl
  | credit c =>
    obtain ⟨sum, hsum, ha⟩ := bind_ok.1 ha
    cases ha
    have hs := addCents_ok.1 hsum
    refine ⟨?_, ?_, ?_, ?_, ?_, ?_, ?_⟩
    · simpa [Applied.touch, Touch.paidCents] using h.payments
    · simpa [Applied.touch, Touch.creditedCents, h.credits] using hs
    · rw [untrustworthy_concat]; exact or_decide_iff h.untrustworthy
    · rw [h.references, List.map_append]
      simp [dedupeNonEmpty, Applied.touch, Touch.reference]
    · rw [h.paymentMemos, List.map_append]
      simp [dedupeNonEmpty, Applied.touch, Touch.paymentMemo]
    · rw [dedupeNonEmpty_pushOnce, List.map_append]
      exact dedupeNonEmpty_append_congr h.creditMemos _
    · rw [latest_concat]; exact h.last

theorem Tallied.add_returns {ts : List Touch} {tally : InvoiceTally} {e : Applied}
    (h : Tallied ts tally) :
    (∃ tally', tally.add e = .ok tally') ↔
      InRange (paid (ts ++ [e.touch])) ∧ InRange (credited (ts ++ [e.touch])) := by
  obtain ⟨row, application⟩ := e
  cases row with
  | payment p =>
    rw [paid_append, credited_append, ← h.payments, ← h.credits]
    simp only [paid_singleton, credited_singleton, Applied.touch, Touch.paidCents,
      Touch.creditedCents, Int.add_zero, tally.creditsCents.inRange, and_true]
    rw [← addCents_returns]
    constructor
    · rintro ⟨tally', ha⟩
      obtain ⟨sum, hsum, -⟩ := bind_ok.1 ha
      exact ⟨sum, hsum⟩
    · rintro ⟨sum, hsum⟩
      exact ⟨_, bind_ok.2 ⟨sum, hsum, rfl⟩⟩
  | credit c =>
    rw [paid_append, credited_append, ← h.payments, ← h.credits]
    simp only [paid_singleton, credited_singleton, Applied.touch, Touch.paidCents,
      Touch.creditedCents, Int.add_zero, tally.paymentsCents.inRange, true_and]
    rw [← addCents_returns]
    constructor
    · rintro ⟨tally', ha⟩
      obtain ⟨sum, hsum, -⟩ := bind_ok.1 ha
      exact ⟨sum, hsum⟩
    · rintro ⟨sum, hsum⟩
      exact ⟨_, bind_ok.2 ⟨sum, hsum, rfl⟩⟩

/-- The run of an invoice's turns keeps its books. -/
theorem tallied_of_run {es : List Applied} {tally : InvoiceTally}
    (h : es.foldlM InvoiceTally.add emptyTally = .ok tally) :
    Tallied (es.map Applied.touch) tally :=
  foldlM_inv (I := fun done t => Tallied (done.map Applied.touch) t)
    (fun hi ha => by rw [List.map_append]; exact hi.add ha) tallied_empty h

/-- ... and returns exactly when its running sums stay in range. -/
theorem run_returns {es : List Applied} :
    (∃ tally, es.foldlM InvoiceTally.add emptyTally = .ok tally) ↔
      RunsInRange (es.map Applied.touch) := by
  rw [foldlM_returns (I := fun done t => Tallied (done.map Applied.touch) t)
    (G := fun done => InRange (paid (done.map Applied.touch)) ∧
      InRange (credited (done.map Applied.touch)))
    (fun hi ha => by rw [List.map_append]; exact hi.add ha)
    (fun hi => by
      rw [List.map_append]
      exact hi.add_returns)
    tallied_empty]
  constructor
  · intro h p hp
    obtain ⟨q, hq, rfl⟩ := List.prefix_map_iff.1 hp
    rcases eq_or_ne q [] with rfl | hne
    · exact ⟨by decide, by decide⟩
    · exact h q hne hq
  · intro h p _ hp
    exact h _ (hp.map _)

/-! ## Pass 2 runs every invoice's turns on their own -/

def knownIn (ledger : List LedgerInvoice) (e : Applied) : Bool := (lookup ledger e.names).isSome

theorem applyTurn_eq (ledger : List LedgerInvoice) (s : Pass2) (e : Applied) :
    applyTurn ledger s e =
      if knownIn ledger e then
        (update Applied.names InvoiceTally.add s.tallies e).map
          fun t => ⟨s.anomalies ++ turnAnomalies (knownIn ledger e) e, t⟩
      else .ok ⟨s.anomalies ++ turnAnomalies (knownIn ledger e) e, s.tallies⟩ := by
  unfold applyTurn update
  by_cases h : knownIn ledger e = true
  · have h' : (lookup ledger e.names).isSome = true := h
    simp only [h, h', ↓reduceIte]
    cases (s.tallies e.names).add e <;> rfl
  · have h' : ¬ (lookup ledger e.names).isSome = true := h
    simp only [h, h']
    rfl

theorem applyTurn_run (ledger : List LedgerInvoice) : ∀ (es : List Applied) (s : Pass2),
    es.foldlM (applyTurn ledger) s =
      ((es.filter (knownIn ledger)).foldlM (update Applied.names InvoiceTally.add) s.tallies).map
        fun t => ⟨s.anomalies ++ es.flatMap (fun e => turnAnomalies (knownIn ledger e) e), t⟩
  | [], s => by simp [pure, Except.pure, Except.map]
  | e :: es, s => by
    rw [List.foldlM_cons, applyTurn_eq]
    by_cases h : knownIn ledger e = true
    · rw [if_pos h, List.filter_cons_of_pos h, List.foldlM_cons]
      cases update Applied.names InvoiceTally.add s.tallies e with
      | error x => rfl
      | ok t =>
        refine (applyTurn_run ledger es _).trans ?_
        simp [List.append_assoc, bind, Except.bind]
    · rw [if_neg h, List.filter_cons_of_neg h]
      refine (applyTurn_run ledger es _).trans ?_
      simp [List.append_assoc]

/-- The two loops over rows are one loop over turns. -/
theorem rows_run (L : SettlementLedger) (s : Pass2) :
    (do
      let paid ← L.payments.foldlM (fun s p => applyRow (ledgerOf L.invoices) s (.payment p)) s
      L.credits.foldlM (fun s c => applyRow (ledgerOf L.invoices) s (.credit c)) paid) =
      L.turns.foldlM (applyTurn (ledgerOf L.invoices)) s := by
  rw [SettlementLedger.turns, foldlM_flatMap, List.foldlM_append, List.foldlM_map]
  congr 1
  funext paid
  rw [List.foldlM_map]
  rfl

theorem lookup_isSome {ledger : List LedgerInvoice} {invoice : LedgerInvoice} (h : invoice ∈ ledger) :
    (lookup ledger invoice.externalId).isSome = true := by
  rw [lookup, List.find?_isSome]
  exact ⟨invoice, h, by simp⟩

/-- An invoice of the ledger has the same turns among the known ones as among all. -/
theorem filter_known {ledger : List LedgerInvoice} {invoice : LedgerInvoice} (h : invoice ∈ ledger)
    (es : List Applied) :
    (es.filter (knownIn ledger)).filter (fun e => e.names = invoice.externalId) =
      es.filter fun e => e.names = invoice.externalId := by
  rw [List.filter_filter]
  refine List.filter_congr fun e _ => ?_
  by_cases he : e.names = invoice.externalId
  · simp [he, knownIn, lookup_isSome h]
  · simp [he]

/-! ## Pass 3 -/

theorem gapStatusOf_eq {invoice : LedgerInvoice} {tally : InvoiceTally} {ts : List Touch}
    (h : Tallied ts tally) {gap : Cents} (hgap : gap.val = invoice.totalCents.val - paid ts) :
    gapStatusOf invoice tally gap = (candidateOf invoice ts).gapStatus := by
  simp only [gapStatusOf, candidateOf, Cents.ext_iff, hgap, h.credits]

/-- Where the sum of payments and credits stays in range, pass 3 answers as the books do. -/
theorem Tallied.verdictOf_ok {ts : List Touch} {tally : InvoiceTally} (h : Tallied ts tally)
    {invoice : LedgerInvoice}
    (hr : ¬ Untrustworthy ts → 0 ≤ invoice.totalCents.val → InRange (paid ts + credited ts)) :
    ∃ v, verdictOf invoice tally = .ok v ∧ v.candidate? = assess invoice ts ∧
      v.anomaly? = overapplied? invoice ts := by
  have hp := h.payments
  have hc := h.credits
  unfold verdictOf
  by_cases hg : tally.untrustworthy = true ∨ invoice.totalCents.val < 0
  · rw [if_pos hg]
    rw [h.untrustworthy] at hg
    refine ⟨_, rfl, (if_neg ?_).symm, (if_neg ?_).symm⟩
    · rintro ⟨hf, -⟩
      exact hf (hg.imp_right .inl)
    · rintro ⟨hu, ht, -⟩
      rcases hg with hg | hg
      · exact hu hg
      · omega
  · rw [if_neg hg]
    rw [not_or, h.untrustworthy] at hg
    obtain ⟨applied, ha⟩ := addCents_returns.2 (hp ▸ hc ▸ hr hg.1 (by omega))
    have hav := addCents_ok.1 ha
    rw [ha]
    by_cases h1 : applied.val > invoice.totalCents.val
    · refine ⟨_, if_pos h1, (if_neg ?_).symm, ?_⟩
      · rintro ⟨hf, -⟩
        exact hf (.inr (.inr (by omega)))
      · have hav' : applied.val = paid ts + credited ts := by omega
        rw [overapplied?, if_pos ⟨hg.1, by omega, by omega⟩, ← eq_centsOf hav']
        rfl
    · have hover : overapplied? invoice ts = none := by
        refine if_neg ?_
        rintro ⟨-, -, ho⟩; omega
      rw [hover]
      by_cases h2 : tally.paymentsCents.val ≤ 0
      · refine ⟨_, (if_neg h1).trans (if_pos h2), (if_neg ?_).symm, rfl⟩
        rintro ⟨-, hpos, -⟩; omega
      · by_cases h3 : tally.paymentsCents.val ≥ invoice.totalCents.val
        · refine ⟨_, (if_neg h1).trans ((if_neg h2).trans (if_pos h3)), (if_neg ?_).symm, rfl⟩
          rintro ⟨-, -, hlt⟩; omega
        · -- the branch left is the candidate's, and its gap cannot leave the range
          have hs : PaidShort invoice ts := by
            refine ⟨?_, by omega, by omega⟩
            rintro (hf | hf | hf)
            · exact hg.1 hf
            · omega
            · omega
          have hu := invoice.totalCents.upper
          unfold maxSafe at hu
          obtain ⟨gap, hgap⟩ := (subCents_returns (a := invoice.totalCents)
            (b := tally.paymentsCents)).2 (by unfold InRange maxSafe; omega)
          have hgv := subCents_ok.1 hgap
          have hgp : gap.val = invoice.totalCents.val - paid ts := by omega
          rw [assess, if_pos hs]
          refine ⟨_, (if_neg h1).trans ((if_neg h2).trans ((if_neg h3).trans
            (bind_ok.2 ⟨gap, hgap, rfl⟩))), ?_, rfl⟩
          simp only [Verdict.candidate?, Option.some.injEq]
          rw [gapStatusOf_eq h hgp, h.references, h.paymentMemos, h.creditMemos, h.last,
            eq_centsOf hp, eq_centsOf hc, eq_centsOf hgp]
          rfl

theorem Tallied.verdictOf_throws {ts : List Touch} {tally : InvoiceTally} (h : Tallied ts tally)
    {invoice : LedgerInvoice} (hu : ¬ Untrustworthy ts) (ht : 0 ≤ invoice.totalCents.val)
    (hr : ¬ InRange (paid ts + credited ts)) : ¬ ∃ v, verdictOf invoice tally = .ok v := by
  rintro ⟨v, hv⟩
  unfold verdictOf at hv
  rw [if_neg (by rw [not_or, h.untrustworthy]; exact ⟨hu, by omega⟩)] at hv
  obtain ⟨applied, ha, -⟩ := bind_ok.1 hv
  exact hr (h.payments ▸ h.credits ▸ addCents_returns.1 ⟨applied, ha⟩)

theorem Tallied.verdictOf_returns {ts : List Touch} {tally : InvoiceTally} (h : Tallied ts tally)
    (invoice : LedgerInvoice) :
    (∃ v, verdictOf invoice tally = .ok v) ↔
      (¬ Untrustworthy ts → 0 ≤ invoice.totalCents.val → InRange (paid ts + credited ts)) := by
  constructor
  · intro hv hu ht
    by_contra hr
    exact h.verdictOf_throws hu ht hr hv
  · intro hr
    obtain ⟨v, hv, -, -⟩ := h.verdictOf_ok hr
    exact ⟨v, hv⟩

section
variable {tallies : Text → InvoiceTally} {books : Text → List Touch} {l : List LedgerInvoice}

/-- Pass 3 over tallies that keep the books. -/
theorem settle_returns : ∀ {l : List LedgerInvoice},
    (∀ invoice ∈ l, Tallied (books invoice.externalId) (tallies invoice.externalId)) → ∀ {s : Pass3},
    ((∃ s', l.foldlM (settleInvoice tallies) s = .ok s') ↔
      ∀ invoice ∈ l, ¬ Untrustworthy (books invoice.externalId) → 0 ≤ invoice.totalCents.val →
        InRange (paid (books invoice.externalId) + credited (books invoice.externalId)))
  | [], _, s => by simp [pure, Except.pure]
  | invoice :: l, h, s => by
    rw [List.forall_mem_cons] at h ⊢
    rw [List.foldlM_cons, ← h.1.verdictOf_returns]
    constructor
    · rintro ⟨s', hs'⟩
      obtain ⟨u, hu, hs'⟩ := bind_ok.1 hs'
      obtain ⟨v, hv, -⟩ := bind_ok.1 hu
      exact ⟨⟨v, hv⟩, (settle_returns h.2).1 ⟨s', hs'⟩⟩
    · rintro ⟨⟨v, hv⟩, hl⟩
      obtain ⟨s', hs'⟩ := (settle_returns h.2 (s := ⟨s.candidates ++ v.candidate?.toList,
        s.anomalies ++ v.anomaly?.toList⟩)).2 hl
      exact ⟨s', bind_ok.2 ⟨_, bind_ok.2 ⟨v, hv, rfl⟩, hs'⟩⟩

theorem settle_ok : ∀ {l : List LedgerInvoice},
    (∀ invoice ∈ l, Tallied (books invoice.externalId) (tallies invoice.externalId)) →
    ∀ {s s' : Pass3}, l.foldlM (settleInvoice tallies) s = .ok s' →
      s'.candidates = s.candidates ++ l.filterMap (fun i => assess i (books i.externalId)) ∧
      s'.anomalies = s.anomalies ++ l.filterMap (fun i => overapplied? i (books i.externalId))
  | [], _, s, s', hs => by
    simp only [List.foldlM_nil, pure, Except.pure, Except.ok.injEq] at hs
    subst hs
    simp
  | invoice :: l, h, s, s', hs => by
    rw [List.forall_mem_cons] at h
    rw [List.foldlM_cons] at hs
    obtain ⟨u, hu, hs⟩ := bind_ok.1 hs
    obtain ⟨v, hv, hu⟩ := bind_ok.1 hu
    cases hu
    obtain ⟨v', hv', hca, han⟩ := h.1.verdictOf_ok ((h.1.verdictOf_returns invoice).1 ⟨v, hv⟩)
    obtain rfl : v' = v := by rw [hv'] at hv; exact Except.ok.inj hv
    obtain ⟨ih1, ih2⟩ := settle_ok h.2 hs
    rw [ih1, ih2, hca, han, List.filterMap_cons, List.filterMap_cons]
    constructor
    · cases assess invoice (books invoice.externalId) <;> simp
    · cases overapplied? invoice (books invoice.externalId) <;> simp

end

/-! ## The refinement -/

namespace SettlementLedger

/-- The tallies pass 3 reads, when pass 2 returns, keep the books of every invoice of the ledger. -/
theorem tallies_keep {L : SettlementLedger} {s s' : Pass2} (h0 : s.tallies = fun _ => emptyTally)
    (h : L.turns.foldlM (applyTurn (ledgerOf L.invoices)) s = .ok s') :
    ∀ invoice ∈ ledgerOf L.invoices,
      Tallied (L.touches invoice.externalId) (s'.tallies invoice.externalId) := by
  intro invoice hi
  rw [applyTurn_run, h0] at h
  obtain ⟨t, ht, rfl⟩ := map_ok.1 h
  have hrun := foldlM_update_ok ht invoice.externalId
  rw [filter_known hi] at hrun
  exact tallied_of_run hrun

/-- What pass 2 starts from. -/
def start (L : SettlementLedger) : Pass2 :=
  ⟨(ledgerOf L.invoices).flatMap (invoiceAnomalies (dominantCurrency (ledgerOf L.invoices))),
    fun _ => emptyTally⟩

theorem detectShortPays_eq (L : SettlementLedger) :
    L.detectShortPays = (do
      let tallied ← L.turns.foldlM (applyTurn (ledgerOf L.invoices)) L.start
      let settled ← (ledgerOf L.invoices).foldlM (settleInvoice tallied.tallies) ⟨[], tallied.anomalies⟩
      .ok { candidates := settled.candidates.insertionSort candidateLe
            anomalies := settled.anomalies
            invoicesExamined := L.invoices.length }) := by
  rw [← rows_run, bind_assoc]
  rfl

/-- **When the run returns.** Exactly when every invoice's own running sums stay in range. -/
theorem detectShortPays_returns (L : SettlementLedger) :
    (∃ r, L.detectShortPays = .ok r) ↔ L.AllInRange := by
  rw [detectShortPays_eq]
  have hrun : (∃ t, (L.turns.filter (knownIn (ledgerOf L.invoices))).foldlM
      (update Applied.names InvoiceTally.add) (fun _ => emptyTally) = .ok t) ↔
      ∀ invoice ∈ ledgerOf L.invoices, RunsInRange (L.touches invoice.externalId) := by
    rw [foldlM_update_returns]
    constructor
    · intro h invoice hi
      have := h invoice.externalId
      rwa [filter_known hi, run_returns] at this
    · intro h id
      by_cases hid : ∃ invoice ∈ ledgerOf L.invoices, invoice.externalId = id
      · obtain ⟨invoice, hi, rfl⟩ := hid
        rw [filter_known hi, run_returns]
        exact h invoice hi
      · -- no turn that names `id` is known, so its loop does nothing
        refine ⟨emptyTally, ?_⟩
        have hnone : (L.turns.filter (knownIn (ledgerOf L.invoices))).filter
            (fun e => e.names = id) = [] := by
          rw [List.filter_filter, List.filter_eq_nil_iff]
          intro e _ he
          simp only [Bool.and_eq_true, decide_eq_true_eq, knownIn, lookup, List.find?_isSome] at he
          obtain ⟨rfl, invoice, hi, hn⟩ := he
          exact hid ⟨invoice, hi, by simpa using hn⟩
        rw [hnone]
        rfl
  constructor
  · rintro ⟨r, h⟩ invoice hi
    obtain ⟨tallied, ht, h⟩ := bind_ok.1 h
    obtain ⟨settled, hs, -⟩ := bind_ok.1 h
    refine ⟨?_, (settle_returns (tallies_keep rfl ht)).1 ⟨settled, hs⟩ invoice hi⟩
    rw [applyTurn_run] at ht
    obtain ⟨t, ht, -⟩ := map_ok.1 ht
    exact hrun.1 ⟨t, ht⟩ invoice hi
  · intro h
    obtain ⟨t, ht⟩ := hrun.2 fun invoice hi => (h invoice hi).1
    have hturns : L.turns.foldlM (applyTurn (ledgerOf L.invoices)) L.start = .ok
        ⟨L.start.anomalies ++ L.turns.flatMap
          (fun e => turnAnomalies (knownIn (ledgerOf L.invoices) e) e), t⟩ := by
      rw [applyTurn_run]
      exact map_ok.2 ⟨t, ht, rfl⟩
    obtain ⟨settled, hs⟩ := (settle_returns (tallies_keep rfl hturns)).2 fun invoice hi => (h invoice hi).2
    exact ⟨_, bind_ok.2 ⟨_, hturns, bind_ok.2 ⟨settled, hs, rfl⟩⟩⟩

/-- **What the run returns.** The candidates of the books, sorted, and the anomalies of the rows. -/
theorem detectShortPays_ok {L : SettlementLedger} {r : ShortPayReport} (h : L.detectShortPays = .ok r) :
    r.candidates = ((ledgerOf L.invoices).filterMap
        fun invoice => assess invoice (L.touches invoice.externalId)).insertionSort candidateLe ∧
      r.anomalies = L.anomalies ∧ r.invoicesExamined = L.invoices.length := by
  rw [detectShortPays_eq] at h
  obtain ⟨tallied, ht, h⟩ := bind_ok.1 h
  obtain ⟨settled, hs, h⟩ := bind_ok.1 h
  cases h
  obtain ⟨hc, ha⟩ := settle_ok (tallies_keep rfl ht) hs
  rw [applyTurn_run] at ht
  obtain ⟨t, -, rfl⟩ := map_ok.1 ht
  refine ⟨by rw [hc, List.nil_append], ?_, rfl⟩
  rw [ha]
  rfl

/-! ## The books of one invoice inside a ledger -/

/-- What a run says of one invoice: its candidate, or that it has none. -/
def candidateFor (L : SettlementLedger) (id : Text) : Except MoneyError (Option ShortPayCandidate) :=
  L.detectShortPays.map fun r => r.candidates.find? fun c => c.invoiceExternalId = id

theorem assess_some {invoice : LedgerInvoice} {ts : List Touch} {c : ShortPayCandidate} :
    assess invoice ts = some c ↔ PaidShort invoice ts ∧ c = candidateOf invoice ts := by
  unfold assess
  split
  · rename_i h; simp [h, eq_comm]
  · rename_i h; simp [h]

theorem mem_candidates {L : SettlementLedger} {r : ShortPayReport} (h : L.detectShortPays = .ok r)
    {c : ShortPayCandidate} :
    c ∈ r.candidates ↔ ∃ invoice ∈ ledgerOf L.invoices,
      PaidShort invoice (L.touches invoice.externalId) ∧
        c = candidateOf invoice (L.touches invoice.externalId) := by
  rw [(detectShortPays_ok h).1, (List.perm_insertionSort _ _).mem_iff, List.mem_filterMap]
  simp only [assess_some]

theorem nodup_ledgerOf (invoices : List LedgerInvoice) :
    ((ledgerOf invoices).map (·.externalId)).Nodup := nodup_firstBy _ _

theorem eq_of_mem_ledgerOf {invoices : List LedgerInvoice} {a b : LedgerInvoice}
    (ha : a ∈ ledgerOf invoices) (hb : b ∈ ledgerOf invoices) (h : a.externalId = b.externalId) :
    a = b := List.inj_on_of_nodup_map (nodup_ledgerOf invoices) ha hb h

theorem lookup_eq_some {invoices : List LedgerInvoice} {id : Text} {invoice : LedgerInvoice} :
    lookup (ledgerOf invoices) id = some invoice ↔
      invoice ∈ ledgerOf invoices ∧ invoice.externalId = id := by
  unfold lookup
  constructor
  · intro h
    exact ⟨List.mem_of_find?_eq_some h, by simpa using List.find?_some h⟩
  · rintro ⟨hi, rfl⟩
    cases hf : (ledgerOf invoices).find? fun i => i.externalId = invoice.externalId with
    | none => exact absurd (List.find?_eq_none.1 hf invoice hi) (by simp)
    | some i =>
      rw [eq_of_mem_ledgerOf (List.mem_of_find?_eq_some hf) hi (by simpa using List.find?_some hf)]

/-- **One invoice at a time.** A run that returns says of each invoice what its books alone say. -/
theorem candidateFor_ok {L : SettlementLedger} (h : L.AllInRange) (id : Text) :
    L.candidateFor id = .ok ((lookup (ledgerOf L.invoices) id).bind
      fun invoice => assess invoice (L.touches id)) := by
  obtain ⟨r, hr⟩ := L.detectShortPays_returns.2 h
  unfold candidateFor
  rw [hr]
  refine congrArg Except.ok ?_
  dsimp only
  cases hf : r.candidates.find? fun c => c.invoiceExternalId = id with
  | none =>
    rw [List.find?_eq_none] at hf
    cases hl : lookup (ledgerOf L.invoices) id with
    | none => rfl
    | some invoice =>
      obtain ⟨hi, rfl⟩ := lookup_eq_some.1 hl
      refine (if_neg (c := PaidShort _ _) fun hs => ?_).symm
      exact hf _ ((mem_candidates hr).2 ⟨invoice, hi, hs, rfl⟩) (by simp [candidateOf])
  | some c =>
    obtain ⟨invoice, hi, hs, rfl⟩ := (mem_candidates hr).1 (List.mem_of_find?_eq_some hf)
    have hid := List.find?_some hf
    rw [decide_eq_true_eq] at hid
    obtain rfl : invoice.externalId = id := hid
    rw [lookup_eq_some.2 ⟨hi, rfl⟩]
    exact (if_pos hs).symm

theorem candidateFor_throws {L : SettlementLedger} (h : ¬ L.AllInRange) (id : Text) :
    ∃ e, L.candidateFor id = .error e := by
  unfold candidateFor
  cases hd : L.detectShortPays with
  | error e => exact ⟨e, rfl⟩
  | ok r => exact absurd (L.detectShortPays_returns.1 ⟨r, hd⟩) h

end SettlementLedger

end Recouple
