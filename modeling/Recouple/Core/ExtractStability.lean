import Mathlib
import Recouple.Core.Classification
import Recouple.Core.LedgerExtract
import Recouple.Lib.Shuffle

/-!
# When the bytes of an extract depend on the order of the rows

`ledger-extract.ts` promises one document for one ledger state: "arrays are sorted by the ledger's own
external ids", so the second sync of an unchanged invoice is recognised by its hash. The rows of the
document are sorted, and its sums do not depend on their order; but the candidate's references and memos
are copied in the order `detectShortPays` met them. The document is the same for every order of the
rows exactly when there is at most one of each (`extract_stable_iff`).
-/

namespace Recouple
open Js FirstSeen KeyedFold

namespace SettlementLedger

/-- The document a sync would store for the invoice, if the run finds a candidate for it. -/
def extractOf (sha256 : ByteArray → Text) (L : SettlementLedger) (id : Text) : Option LedgerExtract :=
  match L.candidateFor id with
  | .ok (some candidate) =>
    (lookup (ledgerOf L.invoices) id).bind fun invoice =>
      (buildLedgerExtract sha256 candidate invoice L.payments L.credits).toOption
  | _ => none

/-- External ids are unique among the rows of each kind. -/
structure Distinct (L : SettlementLedger) : Prop where
  invoices : (L.invoices.map (·.externalId)).Nodup
  payments : (L.payments.map (·.externalId)).Nodup
  credits : (L.credits.map (·.externalId)).Nodup

def SamePayment (p p' : LedgerPayment) : Prop :=
  p' = { p with appliedTo := p'.appliedTo } ∧ p.appliedTo.Perm p'.appliedTo

def SameCredit (c c' : LedgerCredit) : Prop :=
  c' = { c with appliedTo := c'.appliedTo } ∧ c.appliedTo.Perm c'.appliedTo

/-- The same ledger state: the rows, and the applications inside each, in another order. -/
structure Shuffled (L L' : SettlementLedger) : Prop where
  invoices : L.invoices.Perm L'.invoices
  payments : Shuffle SamePayment L.payments L'.payments
  credits : Shuffle SameCredit L.credits L'.credits

/-- No two of the texts read off the touches differ, blank ones aside. -/
def OneText (text : Touch → Option Text) (ts : List Touch) : Prop :=
  ∀ t ∈ ts, ∀ u ∈ ts, ∀ a b, text t = some a → text u = some b → trim a ≠ [] → trim b ≠ [] → a = b

/-- One reference, one payment memo and one credit memo at most. -/
def OneOfEach (ts : List Touch) : Prop :=
  OneText Touch.reference ts ∧ OneText Touch.paymentMemo ts ∧ OneText Touch.creditMemo ts

/-! ## What does not depend on the order -/

section
variable {L L' : SettlementLedger}

theorem touches_perm (h : Shuffled L L') (id : Text) : (L.touches id).Perm (L'.touches id) := by
  rw [touches_eq, touches_eq]
  refine List.Perm.append (h.payments.flatMap_perm ?_) (h.credits.flatMap_perm ?_)
  · rintro p p' ⟨hp, hperm⟩
    rw [hp]
    exact (hperm.filter _).map _
  · rintro c c' ⟨hc, hperm⟩
    rw [hc]
    exact (hperm.filter _).map _

theorem ledgerOf_eq (h : (L.invoices.map (·.externalId)).Nodup) : ledgerOf L.invoices = L.invoices :=
  firstBy_eq_self _ h

theorem Shuffled.distinct (h : Shuffled L L') (hd : L.Distinct) : L'.Distinct where
  invoices := (h.invoices.map _).nodup_iff.1 hd.invoices
  payments := (h.payments.map_perm fun hp => by rw [hp.1]).nodup_iff.1 hd.payments
  credits := (h.credits.map_perm fun hc => by rw [hc.1]).nodup_iff.1 hd.credits

theorem lookup_shuffled (h : Shuffled L L') (hd : L.Distinct) (id : Text) :
    lookup (ledgerOf L'.invoices) id = lookup (ledgerOf L.invoices) id := by
  have hd' := h.distinct hd
  apply Option.ext
  intro invoice
  rw [lookup_eq_some, lookup_eq_some, ledgerOf_eq hd.invoices, ledgerOf_eq hd'.invoices,
    h.invoices.mem_iff]

theorem paid_perm {ts us : List Touch} (h : ts.Perm us) : paid ts = paid us := (h.map _).sum_eq

theorem credited_perm {ts us : List Touch} (h : ts.Perm us) : credited ts = credited us :=
  (h.map _).sum_eq

theorem untrustworthy_perm {ts us : List Touch} (h : ts.Perm us) :
    Untrustworthy ts ↔ Untrustworthy us := by
  unfold Untrustworthy
  simp only [h.mem_iff]

theorem paidShort_perm {ts us : List Touch} (h : ts.Perm us) (invoice : LedgerInvoice) :
    PaidShort invoice ts ↔ PaidShort invoice us := by
  unfold PaidShort Flagged
  rw [paid_perm h, credited_perm h, untrustworthy_perm h]

/-- The later of two dates does not depend on which is met first. -/
theorem later_comm (last : Option Text) (a b : Text) :
    later (later last a) b = later (later last b) a := by
  have key : ∀ {m n : Text}, ¬ textLt m n → ¬ textLt n m → m = n := fun {m n} h h' => by
    rcases textLt_trichotomy m n with h'' | h'' | h''
    · exact absurd h'' h
    · exact h''
    · exact absurd h'' h'
  rcases last with _ | m
  · simp only [later]
    by_cases hab : textLt a b
    · have hba : ¬ textLt b a := fun h => textLt_irrefl a (textLt_trans hab h)
      rw [if_pos hab, if_neg hba]
    · by_cases hba : textLt b a
      · rw [if_neg hab, if_pos hba]
      · rw [if_neg hab, if_neg hba, key hab hba]
  · by_cases hma : textLt m a
    · by_cases hmb : textLt m b
      · simp only [later, hma, hmb, ↓reduceIte]
        by_cases hab : textLt a b
        · have hba : ¬ textLt b a := fun h => textLt_irrefl a (textLt_trans hab h)
          rw [if_pos hab, if_neg hba]
        · by_cases hba : textLt b a
          · rw [if_neg hab, if_pos hba]
          · rw [if_neg hab, if_neg hba, key hab hba]
      · have hab : ¬ textLt a b := fun h => hmb (textLt_trans hma h)
        simp only [later, hma, hmb, hab, ↓reduceIte]
    · by_cases hmb : textLt m b
      · have hba : ¬ textLt b a := fun h => hma (textLt_trans hmb h)
        simp only [later, hma, hmb, hba, ↓reduceIte]
      · simp only [later, hma, hmb, ↓reduceIte]

theorem latest_perm {ts us : List Touch} (h : ts.Perm us) : latest ts = latest us :=
  (h.filterMap _).foldl_eq' (fun a _ b _ last => later_comm last a b) none

theorem mem_dedupeNonEmpty {values : List (Option Text)} {v : Text} :
    v ∈ dedupeNonEmpty values ↔ some v ∈ values ∧ trim v ≠ [] := by
  simp [dedupeNonEmpty]

theorem dedupeNonEmpty_perm {text : Touch → Option Text} {ts us : List Touch} (h : ts.Perm us)
    (hone : OneText text ts) : dedupeNonEmpty (ts.map text) = dedupeNonEmpty (us.map text) := by
  refine firstSeen_eq_of_subsingleton (fun a => ?_) (fun a ha b hb => ?_)
  · exact (((h.map text).filterMap id).filter _).mem_iff
  · have ha' := mem_dedupeNonEmpty.1 (mem_firstSeen.2 ha)
    have hb' := mem_dedupeNonEmpty.1 (mem_firstSeen.2 hb)
    obtain ⟨t, ht, hta⟩ := List.mem_map.1 ha'.1
    obtain ⟨u, hu, hub⟩ := List.mem_map.1 hb'.1
    exact hone t ht u hu a b hta hub ha'.2 hb'.2

/-- With one text of each kind at most, the candidate does not depend on the order. -/
theorem candidateOf_perm {ts us : List Touch} (h : ts.Perm us) (hone : OneOfEach ts)
    (invoice : LedgerInvoice) : candidateOf invoice ts = candidateOf invoice us := by
  unfold candidateOf
  rw [paid_perm h, credited_perm h, latest_perm h, dedupeNonEmpty_perm h hone.1,
    dedupeNonEmpty_perm h hone.2.1, dedupeNonEmpty_perm h hone.2.2]

end

end SettlementLedger

/-! ## The document, as a function of exact sums -/

theorem exact_val (c : Cents) (field : Text) : exact c.val field = .ok c.val := by
  have : cents c.val = .ok c := cents_ok.2 rfl
  rw [exact, this]

theorem rowSum_nonneg {id : Text} {l : List LedgerApplication}
    (h : ∀ a ∈ l, a.invoiceExternalId = id → 0 ≤ a.amountCents.val) : 0 ≤ rowSum id l := by
  refine List.sum_nonneg fun v hv => ?_
  obtain ⟨a, ha, rfl⟩ := List.mem_map.1 hv
  rw [List.mem_filter, decide_eq_true_eq] at ha
  exact h a ha.1 ha.2

/-- Amounts that are not negative and add up to cents are added without rounding. -/
theorem appliedTo_eq {id field : Text} {l : List LedgerApplication}
    (h : ∀ a ∈ l, a.invoiceExternalId = id → 0 ≤ a.amountCents.val) (hle : rowSum id l ≤ maxSafe) :
    appliedTo l id field = .ok (rowSum id l) := by
  have run : ∀ (l : List LedgerApplication) (total : Int), 0 ≤ total →
      (∀ a ∈ l, a.invoiceExternalId = id → 0 ≤ a.amountCents.val) → total + rowSum id l ≤ maxSafe →
      l.foldlM (fun total a =>
        if a.invoiceExternalId ≠ id then Except.ok total
        else do
          let amount ← exact a.amountCents.val field
          .ok (toDoubleInt (total + amount))) total = .ok (total + rowSum id l) := by
    intro l
    induction l with
    | nil => intro total _ _ _; simp [rowSum, pure, Except.pure]
    | cons a l ih =>
      intro total h0 hn hb
      rw [List.forall_mem_cons] at hn
      rw [List.foldlM_cons]
      by_cases ha : a.invoiceExternalId = id
      · have hsum : rowSum id (a :: l) = a.amountCents.val + rowSum id l := by simp [rowSum, ha]
        have hpos := hn.1 ha
        have hrest := rowSum_nonneg hn.2
        rw [if_neg (by simpa using ha), exact_val]
        refine (bind_ok.2 ⟨_, rfl, ?_⟩)
        rw [toDoubleInt_of_safe (by unfold maxSafe; omega) (by omega),
          ih _ (by omega) hn.2 (by omega), hsum, Int.add_assoc]
      · have hsum : rowSum id (a :: l) = rowSum id l := by simp [rowSum, ha]
        rw [if_pos (by simpa using ha)]
        exact bind_ok.2 ⟨total, rfl, by rw [ih total h0 hn.2 (hsum ▸ hb), hsum]⟩
  rw [appliedTo, run l 0 (le_refl _) h (by omega), Int.zero_add]
  have hsafe := rowSum_nonneg h
  exact exact_val ⟨rowSum id l, by unfold maxSafe; omega, hle⟩ field

def paymentJson (id : Text) (p : LedgerPayment) : ExtractRow where
  externalId := p.externalId
  body := .obj
    [("appliedCents", .num (rowSum id p.appliedTo)), ("externalId", .str p.externalId),
     ("memo", orNull p.memo), ("receivedOn", .str p.receivedOn), ("reference", orNull p.reference),
     ("totalCents", .num p.totalCents.val)]

def creditJson (id : Text) (c : LedgerCredit) : ExtractRow where
  externalId := c.externalId
  body := .obj
    [("appliedCents", .num (rowSum id c.appliedTo)), ("externalId", .str c.externalId),
     ("issuedOn", .str c.issuedOn), ("memo", orNull c.memo), ("totalCents", .num c.totalCents.val)]

def candidateJson (c : ShortPayCandidate) : Json :=
  .obj
    [("appliedCreditsCents", .num c.appliedCreditsCents.val),
     ("appliedPaymentsCents", .num c.appliedPaymentsCents.val), ("creditMemos", texts c.creditMemos),
     ("customerExternalId", .str c.customerExternalId), ("customerName", .str c.customerName),
     ("gapCents", .num c.gapCents.val), ("gapStatus", .str c.gapStatus.text),
     ("invoiceExternalId", .str c.invoiceExternalId), ("invoiceNumber", .str c.invoiceNumber),
     ("invoiceTotalCents", .num c.invoiceTotalCents.val),
     ("lastPaymentOn", (c.lastPaymentOn.map Json.str).getD .null), ("paymentMemos", texts c.paymentMemos),
     ("paymentReferences", texts c.paymentReferences)]

def invoiceJson (i : LedgerInvoice) : Json :=
  .obj
    [("balanceCents", .num i.balanceCents.val), ("currency", .str i.currency),
     ("customerExternalId", .str i.customerExternalId), ("customerName", .str i.customerName),
     ("dueOn", (i.dueOn.map Json.str).getD .null), ("externalId", .str i.externalId),
     ("invoiceNumber", .str i.invoiceNumber), ("issuedOn", .str i.issuedOn),
     ("sourceKind", .str i.sourceKind.text), ("totalCents", .num i.totalCents.val)]

/-- The document of a candidate, its sums exact. -/
def extractJson (c : ShortPayCandidate) (i : LedgerInvoice) (payments : List LedgerPayment)
    (credits : List LedgerCredit) : Json :=
  .obj
    [("kind", .str "ledger_short_pay_extract"), ("version", .num 1), ("candidate", candidateJson c),
     ("invoice", invoiceJson i),
     ("payments", .arr ((((payments.filter fun p => names c.invoiceExternalId p.appliedTo).map
        (paymentJson c.invoiceExternalId)).insertionSort rowLe).map (·.body))),
     ("credits", .arr ((((credits.filter fun x => names c.invoiceExternalId x.appliedTo).map
        (creditJson c.invoiceExternalId)).insertionSort rowLe).map (·.body)))]

theorem paymentRow_eq {id : Text} {p : LedgerPayment}
    (h : ∀ a ∈ p.appliedTo, a.invoiceExternalId = id → 0 ≤ a.amountCents.val)
    (hle : rowSum id p.appliedTo ≤ maxSafe) : paymentRow id p = .ok (paymentJson id p) := by
  rw [paymentRow, appliedTo_eq h hle, exact_val]
  rfl

theorem creditRow_eq {id : Text} {c : LedgerCredit}
    (h : ∀ a ∈ c.appliedTo, a.invoiceExternalId = id → 0 ≤ a.amountCents.val)
    (hle : rowSum id c.appliedTo ≤ maxSafe) : creditRow id c = .ok (creditJson id c) := by
  rw [creditRow, appliedTo_eq h hle, exact_val]
  rfl

theorem candidateBody_eq (c : ShortPayCandidate) : candidateBody c = .ok (candidateJson c) := by
  rw [candidateBody, exact_val, exact_val, exact_val, exact_val]
  rfl

theorem invoiceBody_eq (i : LedgerInvoice) : invoiceBody i = .ok (invoiceJson i) := by
  rw [invoiceBody, exact_val, exact_val]
  rfl

namespace SettlementLedger

/-- The rows of trustworthy books hold no negative amount, and no row more than the whole. -/
theorem payment_bounds {L : SettlementLedger} {id : Text} (h : ¬ Untrustworthy (L.touches id))
    {p : LedgerPayment} (hp : p ∈ L.payments) :
    (∀ a ∈ p.appliedTo, a.invoiceExternalId = id → 0 ≤ a.amountCents.val) ∧
      rowSum id p.appliedTo ≤ L.paymentsTo id := by
  have hpos : ∀ p ∈ L.payments, ∀ a ∈ p.appliedTo, a.invoiceExternalId = id → 0 ≤ a.amountCents.val := by
    intro p hp a ha hid
    by_contra hlt
    exact h ⟨_, mem_touches.2 (.inl ⟨p, hp, a, ha, hid, rfl⟩), by simpa [Touch.amount] using hlt⟩
  refine ⟨hpos p hp, ?_⟩
  rw [paymentsTo_eq]
  refine List.single_le_sum (fun v hv => ?_) _ (List.mem_map_of_mem hp)
  obtain ⟨q, hq, rfl⟩ := List.mem_map.1 hv
  exact rowSum_nonneg (hpos q hq)

theorem credit_bounds {L : SettlementLedger} {id : Text} (h : ¬ Untrustworthy (L.touches id))
    {c : LedgerCredit} (hc : c ∈ L.credits) :
    (∀ a ∈ c.appliedTo, a.invoiceExternalId = id → 0 ≤ a.amountCents.val) ∧
      rowSum id c.appliedTo ≤ L.creditsTo id := by
  have hpos : ∀ c ∈ L.credits, ∀ a ∈ c.appliedTo, a.invoiceExternalId = id → 0 ≤ a.amountCents.val := by
    intro c hc a ha hid
    by_contra hlt
    exact h ⟨_, mem_touches.2 (.inr ⟨c, hc, a, ha, hid, rfl⟩), by simpa [Touch.amount] using hlt⟩
  refine ⟨hpos c hc, ?_⟩
  rw [creditsTo_eq]
  refine List.single_le_sum (fun v hv => ?_) _ (List.mem_map_of_mem hc)
  obtain ⟨q, hq, rfl⟩ := List.mem_map.1 hv
  exact rowSum_nonneg (hpos q hq)

/-- The document of a short-paid invoice is written, with exact sums. -/
theorem extractBody_eq {L : SettlementLedger} {invoice : LedgerInvoice}
    (hs : PaidShort invoice (L.touches invoice.externalId)) :
    extractBody (candidateOf invoice (L.touches invoice.externalId)) invoice L.payments L.credits =
      .ok (extractJson (candidateOf invoice (L.touches invoice.externalId)) invoice L.payments
        L.credits) := by
  have hu : ¬ Untrustworthy (L.touches invoice.externalId) := fun hu => hs.1 (.inl hu)
  have hnn := sums_nonneg hu
  have hle : paid (L.touches invoice.externalId) + credited (L.touches invoice.externalId) ≤
      invoice.totalCents.val := by
    by_contra hlt
    exact hs.1 (.inr (.inr (by omega)))
  rw [paid_touches, credited_touches] at hnn hle
  have hmax := invoice.totalCents.upper
  have hpay : (L.payments.filter fun p => names invoice.externalId p.appliedTo).mapM
      (paymentRow invoice.externalId) = .ok ((L.payments.filter fun p =>
        names invoice.externalId p.appliedTo).map (paymentJson invoice.externalId)) := by
    refine mapM_ok fun p hp => ?_
    obtain ⟨hpos, hsum⟩ := payment_bounds hu (List.mem_filter.1 hp).1
    exact paymentRow_eq hpos (by omega)
  have hcred : (L.credits.filter fun c => names invoice.externalId c.appliedTo).mapM
      (creditRow invoice.externalId) = .ok ((L.credits.filter fun c =>
        names invoice.externalId c.appliedTo).map (creditJson invoice.externalId)) := by
    refine mapM_ok fun c hc => ?_
    obtain ⟨hpos, hsum⟩ := credit_bounds hu (List.mem_filter.1 hc).1
    exact creditRow_eq hpos (by omega)
  unfold extractBody
  rw [candidateBody_eq, invoiceBody_eq]
  exact bind_ok.2 ⟨_, hpay, bind_ok.2 ⟨_, hcred, rfl⟩⟩

variable {sha256 : ByteArray → Text} {L L' : SettlementLedger}

/-- What is stored for a short-paid invoice, when the run returns. -/
theorem extractOf_paidShort (hr : L.AllInRange) {invoice : LedgerInvoice}
    (hi : invoice ∈ ledgerOf L.invoices) (hs : PaidShort invoice (L.touches invoice.externalId)) :
    L.extractOf sha256 invoice.externalId = some
      { bytes := utf8 (stringify (extractJson (candidateOf invoice (L.touches invoice.externalId))
          invoice L.payments L.credits))
        mimeType := "application/json"
        filename := extractFilename (candidateOf invoice (L.touches invoice.externalId))
        sha256 := sha256 (utf8 (stringify (extractJson
          (candidateOf invoice (L.touches invoice.externalId)) invoice L.payments L.credits))) } := by
  have hl := lookup_eq_some.2 ⟨hi, rfl⟩
  unfold extractOf
  rw [candidateFor_ok hr, hl, Option.bind_some, assess, if_pos hs]
  simp only [Option.bind_some]
  rw [buildLedgerExtract, if_neg (by simp [candidateOf]), extractBody_eq hs]
  rfl

/-- Nothing is stored for any other invoice, or when the run throws. -/
theorem extractOf_none {id : Text}
    (h : L.AllInRange → ∀ invoice ∈ ledgerOf L.invoices, invoice.externalId = id →
      ¬ PaidShort invoice (L.touches id)) : L.extractOf sha256 id = none := by
  unfold extractOf
  by_cases hr : L.AllInRange
  · rw [candidateFor_ok hr]
    cases hl : lookup (ledgerOf L.invoices) id with
    | none => rfl
    | some invoice =>
      obtain ⟨hi, hid⟩ := lookup_eq_some.1 hl
      rw [Option.bind_some, assess, if_neg (h hr invoice hi hid)]
  · obtain ⟨e, he⟩ := candidateFor_throws hr id
    rw [he]

/-! ## Sorted rows -/

theorem rowLe_iff (a b : ExtractRow) : rowLe a b ↔ codeUnits a.externalId ≤ codeUnits b.externalId := by
  change _ ↔ textLe a.externalId b.externalId
  rw [textLe_iff]
  unfold rowLe compareRows
  by_cases he : a.externalId = b.externalId
  · simp [he]
  · by_cases hlt : textLt a.externalId b.externalId
    · simp [he, hlt]
    · simp [he, hlt]

theorem names_perm {id : Text} {l l' : List LedgerApplication} (h : l.Perm l') :
    names id l = names id l' := by
  unfold names
  rw [Bool.eq_iff_iff, List.any_eq_true, List.any_eq_true]
  simp only [h.mem_iff]

theorem paymentRows_eq (h : Shuffled L L') (hd : L.Distinct) (id : Text) :
    ((L.payments.filter fun p => names id p.appliedTo).map (paymentJson id)).insertionSort rowLe =
      ((L'.payments.filter fun p => names id p.appliedTo).map (paymentJson id)).insertionSort rowLe := by
  refine SortByKey.insertionSort_congr rowLe_iff (h.payments.map_filter_perm
    (fun hp => names_perm hp.2) (fun hp => ?_)) ?_
  · rw [paymentJson, paymentJson, rowSum_perm hp.2, hp.1]
  · rw [List.map_map]
    have hn := (hd.payments.map codeUnits_injective).sublist
      (((List.filter_sublist (p := fun p : LedgerPayment => names id p.appliedTo)).map _).map _)
    rw [List.map_map] at hn
    exact hn

theorem creditRows_eq (h : Shuffled L L') (hd : L.Distinct) (id : Text) :
    ((L.credits.filter fun c => names id c.appliedTo).map (creditJson id)).insertionSort rowLe =
      ((L'.credits.filter fun c => names id c.appliedTo).map (creditJson id)).insertionSort rowLe := by
  refine SortByKey.insertionSort_congr rowLe_iff (h.credits.map_filter_perm
    (fun hc => names_perm hc.2) (fun hc => ?_)) ?_
  · rw [creditJson, creditJson, rowSum_perm hc.2, hc.1]
  · rw [List.map_map]
    have hn := (hd.credits.map codeUnits_injective).sublist
      (((List.filter_sublist (p := fun c : LedgerCredit => names id c.appliedTo)).map _).map _)
    rw [List.map_map] at hn
    exact hn

/-- With one text of each kind, the document of a short-paid invoice is one for all orders. -/
theorem extractOf_shuffled (h : Shuffled L L') (hd : L.Distinct) (hr : L.AllInRange) (hr' : L'.AllInRange)
    {invoice : LedgerInvoice} (hi : invoice ∈ ledgerOf L.invoices)
    (hs : PaidShort invoice (L.touches invoice.externalId))
    (hone : OneOfEach (L.touches invoice.externalId)) :
    L'.extractOf sha256 invoice.externalId = L.extractOf sha256 invoice.externalId := by
  have hperm := touches_perm h invoice.externalId
  have hl' : lookup (ledgerOf L'.invoices) invoice.externalId = some invoice := by
    rw [lookup_shuffled h hd]; exact lookup_eq_some.2 ⟨hi, rfl⟩
  rw [extractOf_paidShort hr hi hs, extractOf_paidShort hr' (lookup_eq_some.1 hl').1
    ((paidShort_perm hperm invoice).1 hs), ← candidateOf_perm hperm hone]
  unfold extractJson
  rw [paymentRows_eq h hd, creditRows_eq h hd]

/-! ## What does depend on the order -/

theorem texts_injective : Function.Injective texts := by
  intro a b h
  rw [texts, texts, Json.arr.injEq] at h
  exact List.map_injective_iff.2 (fun x y hxy => by simpa using hxy) h

/-- Two equal documents list the same references and memos. -/
theorem texts_of_extractJson {c c' : ShortPayCandidate} {i i' : LedgerInvoice}
    {ps ps' : List LedgerPayment} {cs cs' : List LedgerCredit}
    (h : extractJson c i ps cs = extractJson c' i' ps' cs') :
    c.paymentReferences = c'.paymentReferences ∧ c.paymentMemos = c'.paymentMemos ∧
      c.creditMemos = c'.creditMemos := by
  simp only [extractJson, candidateJson, Json.obj.injEq, List.cons.injEq, Prod.mk.injEq, true_and,
    and_true] at h
  obtain ⟨⟨-, -, hcredit, -, -, -, -, -, -, -, -, hmemo, href⟩, -⟩ := h
  exact ⟨texts_injective href, texts_injective hmemo, texts_injective hcredit⟩

/-- Two orders with the same bytes list the same references and memos. -/
theorem texts_of_extractOf (hr : L.AllInRange) (hr' : L'.AllInRange) {invoice : LedgerInvoice}
    (hi : invoice ∈ ledgerOf L.invoices) (hi' : invoice ∈ ledgerOf L'.invoices)
    (hs : PaidShort invoice (L.touches invoice.externalId))
    (hs' : PaidShort invoice (L'.touches invoice.externalId))
    (h : (L.extractOf sha256 invoice.externalId).map (·.bytes) =
      (L'.extractOf sha256 invoice.externalId).map (·.bytes)) :
    (candidateOf invoice (L.touches invoice.externalId)).paymentReferences =
        (candidateOf invoice (L'.touches invoice.externalId)).paymentReferences ∧
      (candidateOf invoice (L.touches invoice.externalId)).paymentMemos =
        (candidateOf invoice (L'.touches invoice.externalId)).paymentMemos ∧
      (candidateOf invoice (L.touches invoice.externalId)).creditMemos =
        (candidateOf invoice (L'.touches invoice.externalId)).creditMemos := by
  rw [extractOf_paidShort hr hi hs, extractOf_paidShort hr' hi' hs'] at h
  simp only [Option.map_some, Option.some.injEq] at h
  exact texts_of_extractJson (stringify_injective (utf8_injective h))

/-- The same ledger with its payments in another order. -/
def withPayments (L : SettlementLedger) (ps : List LedgerPayment) : SettlementLedger :=
  { L with payments := ps }

/-- The same ledger with its credits in another order. -/
def withCredits (L : SettlementLedger) (cs : List LedgerCredit) : SettlementLedger :=
  { L with credits := cs }

theorem samePayment_refl (p : LedgerPayment) : SamePayment p p := ⟨rfl, List.Perm.refl _⟩

theorem sameCredit_refl (c : LedgerCredit) : SameCredit c c := ⟨rfl, List.Perm.refl _⟩

theorem shuffled_withPayments {ps : List LedgerPayment} (h : L.payments.Perm ps) :
    Shuffled L (L.withPayments ps) :=
  ⟨List.Perm.refl _, Shuffle.of_perm samePayment_refl h,
    Shuffle.of_perm sameCredit_refl (List.Perm.refl _)⟩

theorem shuffled_withCredits {cs : List LedgerCredit} (h : L.credits.Perm cs) :
    Shuffled L (L.withCredits cs) :=
  ⟨List.Perm.refl _, Shuffle.of_perm samePayment_refl (List.Perm.refl _),
    Shuffle.of_perm sameCredit_refl h⟩

/-- The first text of the list is the first row's that has one. -/
theorem head_dedupeNonEmpty {l rest : List (Option Text)} {r : Text} (hl : ∀ v ∈ l, v = none)
    (hr : trim r ≠ []) : (dedupeNonEmpty (l ++ some r :: rest)).head? = some r := by
  have hnil : l.filterMap id = [] := List.filterMap_eq_nil_iff.2 fun v hv => hl v hv
  have hcons : (some r :: rest).filterMap id = r :: rest.filterMap id := rfl
  rw [dedupeNonEmpty, List.filterMap_append, hnil, List.nil_append, hcons,
    List.filter_cons_of_pos (by simpa using hr), firstSeen_cons_head]

theorem exists_first_application {l : List LedgerApplication} {a : LedgerApplication} (ha : a ∈ l) :
    ∃ b bs, (l.filter fun x => x.invoiceExternalId = a.invoiceExternalId) = b :: bs :=
  List.exists_cons_of_ne_nil (List.ne_nil_of_mem (List.mem_filter.2 ⟨ha, by simp⟩))

/-- A payment put first puts its own texts first. -/
theorem head_payment_text (L : SettlementLedger) {text : Touch → Option Text} {p : LedgerPayment}
    (rest : List LedgerPayment) {a : LedgerApplication} (ha : a ∈ p.appliedTo) {r : Text} (hr : trim r ≠ [])
    (htext : ∀ x : Cents, text (.paid x p.reference p.memo p.receivedOn) = some r) :
    (dedupeNonEmpty (((L.withPayments (p :: rest)).touches a.invoiceExternalId).map text)).head? =
      some r := by
  rw [touches_eq]
  obtain ⟨b, bs, hb⟩ := exists_first_application ha
  simp only [withPayments, List.flatMap_cons, hb, List.map_cons, List.cons_append, htext]
  exact head_dedupeNonEmpty (l := []) (by simp) hr

/-- A credit put first puts its memo first, whatever the payments say. -/
theorem head_credit_memo (L : SettlementLedger) {c : LedgerCredit} (rest : List LedgerCredit)
    {a : LedgerApplication} (ha : a ∈ c.appliedTo) {r : Text} (hr : trim r ≠ []) (hmemo : c.memo = some r) :
    (dedupeNonEmpty (((L.withCredits (c :: rest)).touches a.invoiceExternalId).map
      Touch.creditMemo)).head? = some r := by
  rw [touches_eq]
  obtain ⟨b, bs, hb⟩ := exists_first_application ha
  simp only [withCredits, List.flatMap_cons, hb, List.map_cons, List.cons_append, List.map_append]
  rw [show Touch.creditMemo (.credited b.amountCents c.memo) = some r from hmemo]
  refine head_dedupeNonEmpty (fun v hv => ?_) hr
  obtain ⟨t, ht, rfl⟩ := List.mem_map.1 hv
  obtain ⟨p, -, ht⟩ := List.mem_flatMap.1 ht
  obtain ⟨x, -, rfl⟩ := List.mem_map.1 ht
  rfl

/-- Two payments of a short-paid invoice that differ in a text give two documents: one order puts the
one first, another order the other. -/
theorem oneText_of_stable_payments {text : Touch → Option Text} {f : ShortPayCandidate → List Text}
    (hf : ∀ i ts, f (candidateOf i ts) = dedupeNonEmpty (ts.map text))
    (hcredit : ∀ x m, text (.credited x m) = none)
    {invoice : LedgerInvoice}
    (hsame : ∀ ps, L.payments.Perm ps → ∀ ps', L.payments.Perm ps' →
      f (candidateOf invoice ((L.withPayments ps).touches invoice.externalId)) =
        f (candidateOf invoice ((L.withPayments ps').touches invoice.externalId)))
    (htext : ∀ x x' r m d, text (.paid x r m d) = text (.paid x' r m d)) :
    OneText text (L.touches invoice.externalId) := by
  intro t ht u hu a b hta hub ha hb
  rcases mem_touches.1 ht with ⟨p, hp, x, hx, hpid, rfl⟩ | ⟨c, -, x, -, -, rfl⟩
  · rcases mem_touches.1 hu with ⟨q, hq, y, hy, hqid, rfl⟩ | ⟨c, -, y, -, -, rfl⟩
    · have h := hsame _ (List.perm_cons_erase hp) _ (List.perm_cons_erase hq)
      rw [hf, hf] at h
      have hfirst := head_payment_text L (L.payments.erase p) hx ha
        (fun z => (htext z x.amountCents _ _ _).trans hta)
      have hsecond := head_payment_text L (L.payments.erase q) hy hb
        (fun z => (htext z y.amountCents _ _ _).trans hub)
      rw [hpid] at hfirst
      rw [hqid] at hsecond
      rw [h, hsecond] at hfirst
      exact (Option.some.inj hfirst).symm
    · rw [hcredit] at hub; cases hub
  · rw [hcredit] at hta; cases hta

theorem oneText_of_stable_credits {invoice : LedgerInvoice}
    (hsame : ∀ cs, L.credits.Perm cs → ∀ cs', L.credits.Perm cs' →
      (candidateOf invoice ((L.withCredits cs).touches invoice.externalId)).creditMemos =
        (candidateOf invoice ((L.withCredits cs').touches invoice.externalId)).creditMemos) :
    OneText Touch.creditMemo (L.touches invoice.externalId) := by
  intro t ht u hu a b hta hub ha hb
  rcases mem_touches.1 ht with ⟨p, -, x, -, -, rfl⟩ | ⟨c, hc, x, hx, hcid, rfl⟩
  · cases hta
  · rcases mem_touches.1 hu with ⟨q, -, y, -, -, rfl⟩ | ⟨d, hd, y, hy, hdid, rfl⟩
    · cases hub
    · have h : dedupeNonEmpty _ = dedupeNonEmpty _ :=
        hsame _ (List.perm_cons_erase hc) _ (List.perm_cons_erase hd)
      have hfirst := head_credit_memo L (L.credits.erase c) hx ha hta
      have hsecond := head_credit_memo L (L.credits.erase d) hy hb hub
      rw [hcid] at hfirst
      rw [hdid] at hsecond
      rw [h, hsecond] at hfirst
      exact (Option.some.inj hfirst).symm

/-- **When the bytes do not depend on the order.** For a ledger with unique ids, every order of its rows
gives every invoice the same document if and only if, for each invoice paid short, all orders keep
their running sums in range or none does, and where they do the rows applied to the invoice carry one
payment reference, one payment memo and one credit memo at most. -/
theorem extract_stable_iff (sha256 : ByteArray → Text) (L : SettlementLedger) (hd : L.Distinct) :
    (∀ L', Shuffled L L' → ∀ id, L'.extractOf sha256 id = L.extractOf sha256 id) ↔
      ∀ invoice ∈ L.invoices, PaidShort invoice (L.touches invoice.externalId) →
        (∀ L', Shuffled L L' → (L'.AllInRange ↔ L.AllInRange)) ∧
        (L.AllInRange → OneOfEach (L.touches invoice.externalId)) := by
  have hled : ∀ {invoice}, invoice ∈ ledgerOf L.invoices ↔ invoice ∈ L.invoices := by
    simp [ledgerOf_eq hd.invoices]
  -- in any order the invoice is in the ledger and is paid short
  have other : ∀ {L'}, Shuffled L L' → ∀ {invoice}, invoice ∈ L.invoices →
      PaidShort invoice (L.touches invoice.externalId) → invoice ∈ ledgerOf L'.invoices ∧
        PaidShort invoice (L'.touches invoice.externalId) := by
    intro L' h invoice hi hs
    refine ⟨?_, (paidShort_perm (touches_perm h _) invoice).1 hs⟩
    rw [ledgerOf_eq (h.distinct hd).invoices]
    exact h.invoices.mem_iff.1 hi
  constructor
  · intro hstable invoice hi hs
    have hranges : ∀ L', Shuffled L L' → (L'.AllInRange ↔ L.AllInRange) := by
      intro L' h
      have heq := hstable L' h invoice.externalId
      obtain ⟨hi', hs'⟩ := other h hi hs
      constructor
      · intro hr'
        by_contra hr
        rw [extractOf_none (fun h' => absurd h' hr), extractOf_paidShort hr' hi' hs'] at heq
        cases heq
      · intro hr
        by_contra hr'
        rw [extractOf_none (L := L') (fun h' => absurd h' hr'),
          extractOf_paidShort hr (hled.2 hi) hs] at heq
        cases heq
    refine ⟨hranges, fun hr => ?_⟩
    have same : ∀ {L1 L2}, Shuffled L L1 → Shuffled L L2 →
        (candidateOf invoice (L1.touches invoice.externalId)).paymentReferences =
            (candidateOf invoice (L2.touches invoice.externalId)).paymentReferences ∧
          (candidateOf invoice (L1.touches invoice.externalId)).paymentMemos =
            (candidateOf invoice (L2.touches invoice.externalId)).paymentMemos ∧
          (candidateOf invoice (L1.touches invoice.externalId)).creditMemos =
            (candidateOf invoice (L2.touches invoice.externalId)).creditMemos := by
      intro L1 L2 h1 h2
      obtain ⟨hi1, hs1⟩ := other h1 hi hs
      obtain ⟨hi2, hs2⟩ := other h2 hi hs
      exact texts_of_extractOf ((hranges L1 h1).2 hr) ((hranges L2 h2).2 hr) hi1 hi2 hs1 hs2
        (congrArg _ ((hstable L1 h1 _).trans (hstable L2 h2 _).symm))
    refine ⟨?_, ?_, ?_⟩
    · exact oneText_of_stable_payments (f := ShortPayCandidate.paymentReferences)
        (fun _ _ => rfl) (fun _ _ => rfl)
        (fun ps hp ps' hp' => (same (shuffled_withPayments hp) (shuffled_withPayments hp')).1)
        (fun _ _ _ _ _ => rfl)
    · exact oneText_of_stable_payments (f := ShortPayCandidate.paymentMemos)
        (fun _ _ => rfl) (fun _ _ => rfl)
        (fun ps hp ps' hp' => (same (shuffled_withPayments hp) (shuffled_withPayments hp')).2.1)
        (fun _ _ _ _ _ => rfl)
    · exact oneText_of_stable_credits
        (fun cs hc cs' hc' => (same (shuffled_withCredits hc) (shuffled_withCredits hc')).2.2)
  · intro hcond L' h id
    by_cases hshort : ∃ invoice ∈ L.invoices, invoice.externalId = id ∧ PaidShort invoice (L.touches id)
    · obtain ⟨invoice, hi, rfl, hs⟩ := hshort
      obtain ⟨hranges, hone⟩ := hcond invoice hi hs
      by_cases hr : L.AllInRange
      · exact extractOf_shuffled h hd hr ((hranges L' h).2 hr) (hled.2 hi) hs (hone hr)
      · rw [extractOf_none (L := L) (fun h' => absurd h' hr),
          extractOf_none (L := L') (fun h' => absurd ((hranges L' h).1 h') hr)]
    · rw [extractOf_none (L := L) fun _ invoice hi hid hs => hshort ⟨invoice, hled.1 hi, hid, hs⟩,
        extractOf_none (L := L') fun _ invoice hi hid hs => hshort ⟨invoice, ?_, hid,
          (paidShort_perm (touches_perm h id) invoice).2 hs⟩]
      rw [ledgerOf_eq (h.distinct hd).invoices] at hi
      exact h.invoices.mem_iff.2 hi

end SettlementLedger

/-- `partPaid`, its $92.00 paid by two cheques. -/
def twoCheques : SettlementLedger :=
  { partPaid 800 with
    payments :=
      [⟨.qbo, "p1", "c1", "2026-02-01", centsOf 5000, some "CHK-1", none, [⟨"i1", centsOf 5000⟩]⟩,
       ⟨.qbo, "p2", "c1", "2026-02-01", centsOf 4200, some "CHK-2", none, [⟨"i1", centsOf 4200⟩]⟩] }

/-- The two cheques in the other order give the same invoice other bytes. -/
theorem twoCheques_reversed :
    twoCheques.Distinct ∧ twoCheques.Shuffled (twoCheques.withPayments twoCheques.payments.reverse) ∧
      (twoCheques.extractOf (fun _ => []) "i1").map (·.bytes) ≠
        ((twoCheques.withPayments twoCheques.payments.reverse).extractOf (fun _ => []) "i1").map
          (·.bytes) := by
  refine ⟨⟨by decide, by decide, by decide⟩,
    SettlementLedger.shuffled_withPayments (List.reverse_perm _).symm, fun h => ?_⟩
  have htexts := @SettlementLedger.texts_of_extractOf (fun _ => []) twoCheques
    (twoCheques.withPayments twoCheques.payments.reverse) (by decide) (by decide) _
    (List.mem_singleton.2 rfl) (List.mem_singleton.2 rfl) (by decide) (by decide) h
  exact absurd htexts.1 (by decide)

/-- The same, its two payments parts of one cheque. -/
def oneCheque : SettlementLedger :=
  { twoCheques with payments := twoCheques.payments.map fun p => { p with reference := some "CHK-1" } }

/-- Its invoice has an extract, the same whichever part is read first. -/
theorem oneCheque_stable :
    (oneCheque.extractOf (fun _ => []) "i1").isSome ∧ ∀ L', oneCheque.Shuffled L' → ∀ id,
      L'.extractOf (fun _ => []) id = oneCheque.extractOf (fun _ => []) id := by
  have hsome := @SettlementLedger.extractOf_paidShort (fun _ => []) oneCheque (by decide) _
    (List.mem_singleton.2 rfl) (by decide)
  refine ⟨Option.isSome_iff_exists.2 ⟨_, hsome⟩,
    (SettlementLedger.extract_stable_iff (fun _ => []) oneCheque ⟨by decide, by decide, by decide⟩).2
      fun invoice hi _ => ?_⟩
  obtain rfl := List.mem_singleton.1 hi
  refine ⟨fun L' h => iff_of_true (fun invoice hi => ?_) (by decide), fun _ => ⟨?_, ?_, ?_⟩⟩
  · -- the two parts in either order stay in range
    have hranges : ∀ ts ∈ (oneCheque.touches "i1").permutations', ∀ invoice ∈ oneCheque.invoices,
        BooksInRange invoice ts := by decide
    have hmem : invoice ∈ oneCheque.invoices := h.invoices.mem_iff.2 (FirstSeen.mem_of_mem_firstBy _ hi)
    obtain rfl := List.mem_singleton.1 hmem
    exact hranges _ (List.mem_permutations'.2 (SettlementLedger.touches_perm h "i1").symm) _ hmem
  · have hone : ∀ t ∈ oneCheque.touches "i1", t.reference = some "CHK-1".toList := by decide
    intro t ht u hu a b ha hb _ _
    rw [hone t ht] at ha
    rw [hone u hu] at hb
    exact (Option.some.inj ha).symm.trans (Option.some.inj hb)
  · have hnone : ∀ t ∈ oneCheque.touches "i1", t.paymentMemo = none := by decide
    intro t ht u hu a b ha
    rw [hnone t ht] at ha
    cases ha
  · have hnone : ∀ t ∈ oneCheque.touches "i1", t.creditMemo = none := by decide
    intro t ht u hu a b ha
    rw [hnone t ht] at ha
    cases ha

end Recouple
