import Recouple.Qbo.SplitLoop

/-!
# A payment is split without losing or inventing a cent

Every accepted Payment is conserved: each credit line goes to one invoice for its amount, and an invoice's
cash and credits add up to its lines (`Conserved`). Lines in another order give the same applications, and
the row is accepted alike unless a running total leaves the safe integers in one of the orders
(`payment_split`). That it can is `reordered_refused`: amounts may be negative.
-/

namespace Recouple.Qbo
open Js KeyedFold

/-- A line that names a credit memo or a journal entry. -/
def PaymentLine.isCredit (line : PaymentLine) : Bool := line.creditMemoId.isSome || line.journalEntryId.isSome

/-- What a line that names an invoice puts on it. -/
def PaymentLine.onInvoice (line : PaymentLine) : Option LedgerApplication :=
  line.invoiceId.map (⟨·, line.amountCents⟩)

/-- A credit line and the invoice it settled. -/
structure Attribution where
  line : PaymentLine
  invoiceId : Text

def Attribution.application (a : Attribution) : LedgerApplication := ⟨a.invoiceId, a.line.amountCents⟩

/-- What is recorded of it: a journal entry's is not. -/
def Attribution.recorded (a : Attribution) : Option (Text × LedgerApplication) :=
  a.line.creditMemoId.map (·, a.application)

/-- What an accepted payment owes its lines. -/
structure Conserved (lines : List PaymentLine) (attributions : List Attribution) (r : PaymentApplications) : Prop where
  /-- Each credit line is attributed to one invoice. -/
  attributed : (attributions.map (·.line)).Perm (lines.filter (·.isCredit))
  /-- That invoice is the line's own, or one that another line names. -/
  invoice : ∀ a ∈ attributions, a.line.invoiceId = some a.invoiceId ∨
    a.line.invoiceId = none ∧ ∃ line ∈ lines, line.isCredit = false ∧ line.invoiceId = some a.invoiceId
  /-- A credit memo's applications are its lines' attributions, for their amounts. -/
  memos : ∀ memo, (Groups.rowsAt r.credits memo).Perm
    ((attributions.filter fun a => a.line.creditMemoId = some memo).map (·.application))
  /-- An invoice's cash, its credit memos and what journal entries funded are its lines. -/
  conserved : ∀ invoice, rowSum invoice r.cash + rowSum invoice (r.credits.flatMap (·.2)) +
    rowSum invoice ((attributions.filter (·.line.journalEntryId.isSome)).map (·.application)) =
      rowSum invoice (lines.filterMap (·.onInvoice))
  /-- No more cash than the payment carried. -/
  bounded : (r.cash.map (·.amountCents.val)).sum ≤ r.totalCents.val

/-! ## The split conserves -/

section
variable {invoices cash : List LedgerApplication} {credits : List Credit} {log : CreditLog}

/-- The invoice lines of the credits' amounts are the lines the credits settle. -/
theorem Forced.settled_perm (h : Forced invoices credits) :
    (credits.map (settledBy invoices)).Perm (invoices.filter fun a => a.amountCents ∈ credits.map (·.2)) := by
  have hamounts : (credits.map (settledBy invoices)).map (·.amountCents) = credits.map (·.2) := by
    rw [List.map_map]
    exact List.map_congr_left fun c hc => (settledBy_mem (h c hc).1).2
  have hnodup : (credits.map (settledBy invoices)).Nodup := by
    refine List.Nodup.of_map (·.amountCents) ?_
    rw [hamounts, List.nodup_iff_count_le_one]
    intro a
    by_cases ha : a ∈ credits.map (·.2)
    · obtain ⟨c, hc, rfl⟩ := List.mem_map.1 ha
      exact (h c hc).2.le
    · rw [List.count_eq_zero_of_not_mem ha]
      exact Nat.zero_le 1
  have hnodup' : (invoices.filter fun a => a.amountCents ∈ credits.map (·.2)).Nodup := by
    refine List.Nodup.of_map (·.amountCents) ?_
    rw [List.nodup_iff_count_le_one]
    intro a
    by_cases ha : a ∈ credits.map (·.2)
    · obtain ⟨c, hc, rfl⟩ := List.mem_map.1 ha
      exact ((List.filter_sublist.map _).count_le _).trans (h c hc).1.le
    · rw [List.count_eq_zero_of_not_mem]
      · exact Nat.zero_le 1
      · rintro hmem
        obtain ⟨x, hx, rfl⟩ := List.mem_map.1 hmem
        exact ha (by simpa using (List.mem_filter.1 hx).2)
  rw [List.perm_ext_iff_of_nodup hnodup hnodup']
  intro a
  rw [List.mem_map, List.mem_filter, decide_eq_true_eq]
  constructor
  · rintro ⟨c, hc, rfl⟩
    obtain ⟨hmem, ha⟩ := settledBy_mem (h c hc).1
    exact ⟨hmem, ha ▸ List.mem_map_of_mem hc⟩
  · rintro ⟨hmem, ha⟩
    obtain ⟨c, hc, hca⟩ := List.mem_map.1 ha
    obtain ⟨hs, hsa⟩ := settledBy_mem (h c hc).1
    exact ⟨c, hc, eq_of_count_eq_one (h c hc).1 hs hmem hsa hca.symm⟩

theorem rowSum_credits (invoice only : Text) : ∀ credits : List Credit,
    rowSum invoice (credits.map fun c => ⟨only, c.2⟩) = if only = invoice then (credits.map (·.2.val)).sum else 0
  | [] => by simp
  | c :: credits => by
    have ih := rowSum_credits invoice only credits
    rw [List.map_cons, ← List.singleton_append, rowSum_append, ih]
    by_cases h : only = invoice <;> simp [rowSum, h]

/-- **Nothing is lost or invented**: some invoice is named for each credit, for its amount, and with the cash
these are the invoice lines. -/
theorem Split.conserves (h : Split invoices credits cash log) : ∃ application : Credit → LedgerApplication,
    (∀ c ∈ credits, (application c).amountCents = c.2 ∧
      (application c).invoiceExternalId ∈ invoices.map (·.invoiceExternalId)) ∧
    log = logOn application credits ∧
    ∀ invoice, rowSum invoice cash + rowSum invoice (credits.map application) = rowSum invoice invoices := by
  cases h with
  | cash => exact ⟨fun c => ⟨[], c.2⟩, fun _ hc => absurd hc List.not_mem_nil, rfl, fun _ => by simp⟩
  | @one _ only c hne hone hval hpos =>
    subst hone
    refine ⟨fun c => ⟨only.invoiceExternalId, c.2⟩, fun _ _ => ⟨rfl, List.mem_singleton.2 rfl⟩, rfl, fun invoice => ?_⟩
    rw [rowSum_credits]
    by_cases hi : only.invoiceExternalId = invoice
    · have hcash : rowSum invoice (if 0 < c.val then [⟨only.invoiceExternalId, c⟩] else []) = c.val := by
        split_ifs with hc
        · simp [rowSum, hi]
        · rw [rowSum_nil]
          omega
      rw [hcash, if_pos hi, hval]
      simp [rowSum, hi]
    · have hcash : rowSum invoice (if 0 < c.val then [⟨only.invoiceExternalId, c⟩] else []) = 0 := by
        split_ifs <;> simp [rowSum, hi]
      rw [hcash, if_neg hi]
      simp [rowSum, hi]
  | several hne hlen hforced =>
    refine ⟨settledBy invoices, fun c hc => ?_, rfl, fun invoice => ?_⟩
    · obtain ⟨hmem, ha⟩ := settledBy_mem (hforced c hc).1
      exact ⟨ha, List.mem_map_of_mem hmem⟩
    · rw [rowSum_perm hforced.settled_perm, ← rowSum_append]
      refine rowSum_perm (List.perm_append_comm.trans ?_)
      have := List.filter_append_perm (fun a : LedgerApplication => decide (a.amountCents ∈ credits.map (·.2))) invoices
      simpa using this

end

/-! ## The lines -/

/-- The attributions that stand on the line itself. -/
def ownAttributions (lines : List PaymentLine) : List Attribution :=
  lines.filterMap fun line => if line.isCredit then line.invoiceId.map (⟨line, ·⟩) else none

/-- An invoice's lines are those that name no credit and those that do. -/
theorem onInvoice_perm : ∀ lines : List PaymentLine,
    (lines.filterMap (·.onInvoice)).Perm (invoicesOf lines ++ (ownAttributions lines).map (·.application))
  | [] => .refl _
  | line :: lines => by
    have ih := onInvoice_perm lines
    unfold invoicesOf ownAttributions at ih ⊢
    obtain ⟨path, amount, invoice, memo, journal⟩ := line
    cases invoice <;> cases memo <;> cases journal <;>
      simp [PaymentLine.onInvoice, invoiceLineOf, PaymentLine.isCredit, List.filterMap_cons, InvoiceLine.asCash,
        Attribution.application] at ih ⊢
    all_goals first
      | exact ih
      | exact (ih.cons _).trans List.perm_middle.symm

/-- The credit lines are those with an invoice of their own and those without. -/
theorem isCredit_perm : ∀ lines : List PaymentLine, (lines.filter (·.isCredit)).Perm
    ((ownAttributions lines).map (·.line) ++ (lines.filterMap creditLineOf).map (·.line))
  | [] => .refl _
  | line :: lines => by
    have ih := isCredit_perm lines
    unfold ownAttributions at ih ⊢
    obtain ⟨path, amount, invoice, memo, journal⟩ := line
    cases invoice <;> cases memo <;> cases journal <;>
      simp [creditLineOf, PaymentLine.isCredit, List.filterMap_cons] at ih ⊢
    all_goals first
      | exact ih
      | exact (ih.cons _).trans List.perm_middle.symm

/-- What lines with both an invoice and a credit memo record. -/
theorem sameLineOf_recorded : ∀ {lines : List PaymentLine}, (∀ line ∈ lines, line.OneCredit) →
    lines.filterMap sameLineOf = (ownAttributions lines).filterMap (·.recorded)
  | [], _ => rfl
  | line :: lines, h => by
    rw [List.forall_mem_cons] at h
    have ih := sameLineOf_recorded h.2
    have hone := h.1
    unfold ownAttributions at ih ⊢
    obtain ⟨path, amount, invoice, memo, journal⟩ := line
    cases invoice <;> cases memo <;> cases journal <;>
      simp [PaymentLine.OneCredit, sameLineOf, PaymentLine.isCredit, List.filterMap_cons, Attribution.recorded,
        Attribution.application] at hone ih ⊢ <;> exact ih

/-- A credit line of the split names no invoice, and records the credit memo it names. -/
theorem creditLineOf_some {line : PaymentLine} {c : CreditLine} (hone : line.OneCredit)
    (h : creditLineOf line = some c) :
    c.line = line ∧ line.invoiceId = none ∧ c.creditMemoId = line.creditMemoId := by
  obtain ⟨path, amount, invoice, memo, journal⟩ := line
  cases invoice <;> cases memo <;> cases journal <;> simp [creditLineOf, PaymentLine.OneCredit] at h hone
  all_goals
    subst h
    exact ⟨rfl, rfl, rfl⟩

/-- The attributions of credit lines without an invoice of their own. -/
def pairedAttributions (application : Credit → LedgerApplication) (creditLines : List CreditLine) : List Attribution :=
  creditLines.map fun c => ⟨c.line, (application c.asCredit).invoiceExternalId⟩

section
variable {application : Credit → LedgerApplication} {creditLines : List CreditLine}

theorem paired_application (h : ∀ c ∈ creditLines.map (·.asCredit), (application c).amountCents = c.2) :
    (pairedAttributions application creditLines).map (·.application) =
      (creditLines.map (·.asCredit)).map application := by
  rw [pairedAttributions, List.map_map, List.map_map]
  refine List.map_congr_left fun c hc => ?_
  have hamount := h c.asCredit (List.mem_map_of_mem hc)
  simp only [Function.comp_apply, Attribution.application]
  change (⟨_, c.asCredit.2⟩ : LedgerApplication) = _
  rw [← hamount]

theorem paired_recorded (h : ∀ c ∈ creditLines.map (·.asCredit), (application c).amountCents = c.2)
    (hmemo : ∀ c ∈ creditLines, c.creditMemoId = c.line.creditMemoId) :
    (pairedAttributions application creditLines).filterMap (·.recorded) =
      logOn application (creditLines.map (·.asCredit)) := by
  rw [pairedAttributions, logOn, List.filterMap_map, List.filterMap_map]
  refine List.filterMap_congr fun c hc => ?_
  have hamount := h c.asCredit (List.mem_map_of_mem hc)
  simp only [Function.comp_apply, Attribution.recorded, Attribution.application, ← hmemo c hc]
  change c.creditMemoId.map (·, (⟨_, c.asCredit.2⟩ : LedgerApplication)) = _
  rw [← hamount]
  rfl

end

/-- The applications of one memo among attributions. -/
theorem recorded_filter (memo : Text) : ∀ attributions : List Attribution,
    ((attributions.filterMap (·.recorded)).filter fun entry => entry.1 = memo).map (·.2) =
      (attributions.filter fun a => a.line.creditMemoId = some memo).map (·.application)
  | [] => rfl
  | a :: attributions => by
    have ih := recorded_filter memo attributions
    cases hm : a.line.creditMemoId with
    | none =>
      simp [Attribution.recorded, hm] at ih ⊢
      exact ih
    | some m => by_cases h : m = memo <;> simp [Attribution.recorded, hm, h] at ih ⊢ <;> exact ih

/-- An invoice's attributions are those of credit memos and those of journal entries. -/
theorem rowSum_attributions (invoice : Text) : ∀ {attributions : List Attribution},
    (∀ a ∈ attributions, a.line.isCredit = true ∧ a.line.OneCredit) →
    rowSum invoice (attributions.map (·.application)) =
      rowSum invoice ((attributions.filterMap (·.recorded)).map (·.2)) +
        rowSum invoice ((attributions.filter (·.line.journalEntryId.isSome)).map (·.application))
  | [], _ => rfl
  | a :: attributions, h => by
    rw [List.forall_mem_cons] at h
    have ih := rowSum_attributions invoice h.2
    obtain ⟨hcredit, hone⟩ := h.1
    rw [List.map_cons, ← List.singleton_append, rowSum_append, ih]
    unfold PaymentLine.OneCredit at hone
    cases hm : a.line.creditMemoId with
    | none =>
      have hj : a.line.journalEntryId.isSome = true := by simpa [PaymentLine.isCredit, hm] using hcredit
      have hpart : (a :: attributions).filter (·.line.journalEntryId.isSome) =
          [a] ++ attributions.filter (·.line.journalEntryId.isSome) := List.filter_cons_of_pos hj
      have hnone : (a :: attributions).filterMap (·.recorded) = attributions.filterMap (·.recorded) :=
        List.filterMap_cons_none (by simp [Attribution.recorded, hm])
      rw [hpart, hnone, List.map_append, rowSum_append, List.map_singleton]
      omega
    | some m =>
      have hj : a.line.journalEntryId = none := by simpa [hm] using hone
      have hpart : (a :: attributions).filter (·.line.journalEntryId.isSome) =
          attributions.filter (·.line.journalEntryId.isSome) := List.filter_cons_of_neg (by simp [hj])
      have hsome : (a :: attributions).filterMap (·.recorded) =
          [(m, a.application)] ++ attributions.filterMap (·.recorded) :=
        List.filterMap_cons_some (by simp [Attribution.recorded, hm])
      rw [hpart, hsome, List.map_append, rowSum_append, List.map_singleton]
      dsimp only
      omega

variable {T : CaseTables} {row row' : JsonObject} {path path' : Text}

/-- **Every accepted payment is conserved.** -/
theorem accepted_conserved {r : PaymentApplications} (h : readPaymentApplications T row path = .ok r) :
    ∃ lines attributions, readPaymentLines T row path = .ok lines ∧ Conserved lines attributions r := by
  obtain ⟨lines, log, -, hl, hsplit, hcredits, hle, -, -⟩ := readPaymentApplications_ok.1 h
  have hone := readPaymentLines_oneCredit hl
  obtain ⟨application, happ, rfl, hsum⟩ := hsplit.conserves
  have hlineOf : ∀ c ∈ lines.filterMap creditLineOf, c.line ∈ lines ∧ c.line.invoiceId = none ∧
      c.creditMemoId = c.line.creditMemoId := fun c hc => by
    obtain ⟨line, hline, hc⟩ := List.mem_filterMap.1 hc
    obtain ⟨rfl, hi, hm⟩ := creditLineOf_some (hone line hline) hc
    exact ⟨hline, hi, hm⟩
  let paired := pairedAttributions application (lines.filterMap creditLineOf)
  have hpairedLines : paired.map (·.line) = (lines.filterMap creditLineOf).map (·.line) := by
    simp [paired, pairedAttributions]
  have hattributed : ((ownAttributions lines ++ paired).map (·.line)).Perm (lines.filter (·.isCredit)) := by
    rw [List.map_append, hpairedLines]
    exact (isCredit_perm lines).symm
  have hrecorded : (ownAttributions lines ++ paired).filterMap (·.recorded) =
      lines.filterMap sameLineOf ++ logOn application (creditsOf lines) := by
    rw [List.filterMap_append, ← sameLineOf_recorded hone,
      paired_recorded (fun c hc => (happ c hc).1) fun c hc => (hlineOf c hc).2.2]
    rfl
  rw [← hrecorded] at hcredits
  refine ⟨lines, ownAttributions lines ++ paired, hl, hattributed, fun a ha => ?_, fun memo => ?_, fun invoice => ?_, hle⟩
  · rcases List.mem_append.1 ha with ha | ha
    · obtain ⟨line, -, hline⟩ := List.mem_filterMap.1 ha
      split_ifs at hline
      obtain ⟨i, hi, rfl⟩ := Option.map_eq_some_iff.1 hline
      exact .inl hi
    · obtain ⟨c, hc, rfl⟩ := List.mem_map.1 ha
      refine .inr ⟨(hlineOf c hc).2.1, ?_⟩
      obtain ⟨x, hx, hxi⟩ := List.mem_map.1 (happ c.asCredit (List.mem_map_of_mem hc)).2
      obtain ⟨e, he, rfl⟩ := List.mem_map.1 hx
      obtain ⟨line, hline, he⟩ := List.mem_filterMap.1 he
      refine ⟨line, hline, ?_⟩
      dsimp only
      rw [← hxi]
      obtain ⟨p, amount, invoice, memo, journal⟩ := line
      cases invoice <;> cases memo <;> cases journal <;> simp [invoiceLineOf] at he
      subst he
      exact ⟨rfl, rfl⟩
  · rw [hcredits, rowsAt_record, recorded_filter]
    exact .refl _
  · have hcredit : ∀ a ∈ ownAttributions lines ++ paired, a.line.isCredit = true ∧ a.line.OneCredit := fun a ha => by
      have hmem := hattributed.mem_iff.1 (List.mem_map_of_mem ha)
      obtain ⟨hline, hc⟩ := List.mem_filter.1 hmem
      exact ⟨hc, hone _ hline⟩
    have hall := rowSum_attributions invoice hcredit
    have hmap : rowSum invoice (r.credits.flatMap (·.2)) =
        rowSum invoice (((ownAttributions lines ++ paired).filterMap (·.recorded)).map (·.2)) := by
      rw [hcredits]
      have hperm := flatMap_record ((ownAttributions lines ++ paired).filterMap (·.recorded)) []
      exact rowSum_perm (by simpa using hperm)
    have hpaired : rowSum invoice (paired.map (·.application)) =
        rowSum invoice ((creditsOf lines).map application) := by
      rw [show paired.map (·.application) = (creditsOf lines).map application from
        paired_application fun c hc => (happ c hc).1]
    rw [rowSum_perm (onInvoice_perm lines), rowSum_append, ← hsum invoice, hmap]
    rw [List.map_append, rowSum_append] at hall
    omega

/-! ## Reordered lines -/

/-- The same applications, in whatever order. -/
structure SameApplications (r r' : PaymentApplications) : Prop where
  totalCents : r.totalCents = r'.totalCents
  cash : r.cash.Perm r'.cash
  credits : ∀ memo, (Groups.rowsAt r.credits memo).Perm (Groups.rowsAt r'.credits memo)

theorem filterMap_placeless {β : Type} {f : PaymentLine → Option β} (hf : ∀ line, f line.placeless = f line)
    {lines lines' : List PaymentLine} (h : (lines.map (·.placeless)).Perm (lines'.map (·.placeless))) :
    (lines.filterMap f).Perm (lines'.filterMap f) := by
  have := h.filterMap f
  simpa only [List.filterMap_map, Function.comp_def, hf] using this

theorem invoicesOf_perm {lines lines' : List PaymentLine}
    (h : (lines.map (·.placeless)).Perm (lines'.map (·.placeless))) :
    (invoicesOf lines).Perm (invoicesOf lines') := by
  unfold invoicesOf
  rw [List.map_filterMap, List.map_filterMap]
  refine filterMap_placeless (fun line => ?_) h
  obtain ⟨p, amount, invoice, memo, journal⟩ := line
  cases invoice <;> cases memo <;> cases journal <;> rfl

theorem creditsOf_perm {lines lines' : List PaymentLine}
    (h : (lines.map (·.placeless)).Perm (lines'.map (·.placeless))) :
    (creditsOf lines).Perm (creditsOf lines') := by
  unfold creditsOf
  rw [List.map_filterMap, List.map_filterMap]
  refine filterMap_placeless (fun line => ?_) h
  obtain ⟨p, amount, invoice, memo, journal⟩ := line
  cases invoice <;> cases memo <;> cases journal <;> rfl

theorem sameLineOf_perm {lines lines' : List PaymentLine}
    (h : (lines.map (·.placeless)).Perm (lines'.map (·.placeless))) :
    (lines.filterMap sameLineOf).Perm (lines'.filterMap sameLineOf) := by
  refine filterMap_placeless (fun line => ?_) h
  obtain ⟨p, amount, invoice, memo, journal⟩ := line
  cases invoice <;> cases memo <;> cases journal <;> rfl

/-- The total does not depend on where the row stands. -/
theorem total_moved {total : Cents} (path' : Text) (h : Reordered row row')
    (ht : qboAmountToCents T (field row "TotalAmt") path = .ok total) :
    qboAmountToCents T (field row' "TotalAmt") path' = .ok total := by
  rw [h.1]
  exact qboAmountToCents_ok.2 (qboAmountToCents_ok.1 ht)

/-- Two accepted orders give the same applications. -/
theorem reordered_same {r r' : PaymentApplications} (h : Reordered row row')
    (hr : readPaymentApplications T row path = .ok r) (hr' : readPaymentApplications T row' path' = .ok r') :
    SameApplications r r' := by
  obtain ⟨lines, log, ht, hl, hsplit, hcredits, -⟩ := readPaymentApplications_ok.1 hr
  obtain ⟨lines', log', ht', hl', hsplit', hcredits', -⟩ := readPaymentApplications_ok.1 hr'
  obtain ⟨lines'', hl'', hperm⟩ := readPaymentLines_reordered path' h hl
  obtain rfl : lines' = lines'' := by
    rw [hl'] at hl''
    exact Except.ok.inj hl''
  obtain ⟨cash₂, log₂, hsplit₂, hcash, hlog⟩ := hsplit.perm (invoicesOf_perm hperm) (creditsOf_perm hperm)
  obtain ⟨rfl, rfl⟩ := hsplit'.unique hsplit₂
  refine ⟨?_, hcash, fun memo => ?_⟩
  · have := total_moved (member path' "TotalAmt") h ht
    rw [ht'] at this
    exact (Except.ok.inj this).symm
  · rw [hcredits, hcredits', rowsAt_record, rowsAt_record]
    exact ((((sameLineOf_perm hperm).append hlog).filter _).map _).append_left _

/-- An order is refused where another is accepted for a running total only. -/
theorem reordered_error {r : PaymentApplications} {e : Thrown} (h : Reordered row row')
    (hr : readPaymentApplications T row path = .ok r) (he : readPaymentApplications T row' path' = .error e) :
    ∃ lines' cash', readPaymentLines T row' path' = .ok lines' ∧ r.cash.Perm cash' ∧
      ¬ (Running (fundedAmounts (sortLines lines')) ∧ Running (cash'.map (·.amountCents))) ∧
      ∃ v, e = .money (.outOfRange v) := by
  obtain ⟨lines, log, ht, hl, hsplit, -, hle, -⟩ := readPaymentApplications_ok.1 hr
  obtain ⟨lines', hl', hperm⟩ := readPaymentLines_reordered path' h hl
  obtain ⟨cash', log', hsplit', hcash, -⟩ := hsplit.perm (invoicesOf_perm hperm) (creditsOf_perm hperm)
  rw [(hcash.map _).sum_eq] at hle
  exact ⟨lines', cash', hl', hcash, readPaymentApplications_error (total_moved _ h ht) hl' hsplit' hle he⟩

theorem mem_cash_nonneg {invoices cash : List LedgerApplication} {credits : List Credit} {log : CreditLog}
    (h : Split invoices credits cash log) (hpos : ∀ a ∈ invoices, 0 ≤ a.amountCents.val) :
    ∀ a ∈ cash, 0 ≤ a.amountCents.val := by
  cases h with
  | cash => exact hpos
  | one _ _ _ hc =>
    intro a ha
    split_ifs at ha
    · rw [List.mem_singleton.1 ha]
      exact hc
    · exact absurd ha List.not_mem_nil
  | several => exact fun a ha => hpos a (List.mem_of_mem_filter ha)

theorem fundedAmounts_eq (lines : List PaymentLine) : fundedAmounts (sortLines lines) =
    if (invoicesOf lines).length = 1 then (creditsOf lines).map (·.2) else [] := by
  rw [sortLines_eq]
  unfold fundedAmounts invoicesOf creditsOf
  rw [List.length_map, List.map_map]
  rfl

/-- Without negative amounts an order is accepted with any other. -/
theorem reordered_accepted {r : PaymentApplications} (h : Reordered row row')
    (hr : readPaymentApplications T row path = .ok r)
    (hpos : ∀ lines, readPaymentLines T row path = .ok lines → ∀ line ∈ lines, 0 ≤ line.amountCents.val) :
    ∃ r', readPaymentApplications T row' path' = .ok r' := by
  cases he : readPaymentApplications T row' path' with
  | ok r' => exact ⟨r', rfl⟩
  | error e =>
    exfalso
    obtain ⟨lines', cash', hl', hcash, hrun, -⟩ := reordered_error h hr he
    obtain ⟨lines, log, -, hl, hsplit, -, -, hfunded, htotal⟩ := readPaymentApplications_ok.1 hr
    obtain ⟨lines'', hl'', hperm⟩ := readPaymentLines_reordered path' h hl
    obtain rfl : lines' = lines'' := by
      rw [hl'] at hl''
      exact Except.ok.inj hl''
    have hinvoice : ∀ a ∈ invoicesOf lines, 0 ≤ a.amountCents.val := fun a ha => by
      obtain ⟨l, hl', rfl⟩ := List.mem_map.1 ha
      obtain ⟨line, hline, hl'⟩ := List.mem_filterMap.1 hl'
      have hamount := hpos lines hl line hline
      obtain ⟨p, amount, invoice, memo, journal⟩ := line
      cases invoice <;> cases memo <;> cases journal <;> simp [invoiceLineOf] at hl'
      subst hl'
      exact hamount
    have hcredit : ∀ c ∈ creditsOf lines, 0 ≤ c.2.val := fun c hc => by
      obtain ⟨l, hl', rfl⟩ := List.mem_map.1 hc
      obtain ⟨line, hline, hl'⟩ := List.mem_filterMap.1 hl'
      obtain ⟨rfl, -⟩ := creditLineOf_some (readPaymentLines_oneCredit hl line hline) hl'
      exact hpos lines hl _ hline
    refine hrun ⟨?_, ?_⟩
    · rw [fundedAmounts_eq] at hfunded ⊢
      rw [← (invoicesOf_perm hperm).length_eq]
      split_ifs at hfunded ⊢ with hlen
      · have hp : ((creditsOf lines).map (·.2)).Perm ((creditsOf lines').map (·.2)) := (creditsOf_perm hperm).map _
        have hall : ∀ a ∈ (creditsOf lines).map (·.2), 0 ≤ a.val := fun a ha => by
          obtain ⟨c, hc, rfl⟩ := List.mem_map.1 ha
          exact hcredit c hc
        rw [running_of_nonneg hall, (hp.map _).sum_eq] at hfunded
        exact (running_of_nonneg fun a ha => hall a (hp.mem_iff.2 ha)).2 hfunded
      · exact running_nil
    · have hp : (r.cash.map (·.amountCents)).Perm (cash'.map (·.amountCents)) := hcash.map _
      have hall : ∀ a ∈ r.cash.map (·.amountCents), 0 ≤ a.val := fun a ha => by
        obtain ⟨c, hc, rfl⟩ := List.mem_map.1 ha
        exact mem_cash_nonneg hsplit hinvoice c hc
      rw [running_of_nonneg hall, (hp.map _).sum_eq] at htotal
      exact (running_of_nonneg fun a ha => hall a (hp.mem_iff.2 ha)).2 htotal

/-- No line of the row has a negative amount. -/
def NoNegative (T : CaseTables) (row : JsonObject) (path : Text) : Prop :=
  ∀ lines, readPaymentLines T row path = .ok lines → ∀ line ∈ lines, 0 ≤ line.amountCents.val

theorem NoNegative.reordered (h : NoNegative T row path) (hr : Reordered row row') : NoNegative T row' path' := by
  intro lines' hl' line' hline'
  obtain ⟨lines, hl, hperm⟩ := readPaymentLines_reordered path hr.symm hl'
  have hmem : line'.placeless ∈ lines.map (·.placeless) := hperm.mem_iff.1 (List.mem_map_of_mem hline')
  obtain ⟨line, hline, heq⟩ := List.mem_map.1 hmem
  have hamount : line.amountCents = line'.amountCents := congrArg (·.amountCents) heq
  rw [← hamount]
  exact h lines hl line hline

/-- **The split of a payment.** An accepted row is conserved. Its lines in another order give the same
applications; they are refused for a running total past the safe integers only, and never where no amount is
negative. -/
theorem payment_split (T : CaseTables) :
    (∀ row path r, readPaymentApplications T row path = .ok r →
      ∃ lines attributions, readPaymentLines T row path = .ok lines ∧ Conserved lines attributions r) ∧
    ∀ row row' path path', Reordered row row' →
      (∀ r r', readPaymentApplications T row path = .ok r → readPaymentApplications T row' path' = .ok r' →
        SameApplications r r') ∧
      (∀ r e, readPaymentApplications T row path = .ok r → readPaymentApplications T row' path' = .error e →
        ∃ v, e = .money (.outOfRange v)) ∧
      (NoNegative T row path → ((∃ r, readPaymentApplications T row path = .ok r) ↔
        ∃ r', readPaymentApplications T row' path' = .ok r')) := by
  refine ⟨fun row path r h => accepted_conserved h, fun row row' path path' h => ⟨fun r r' hr hr' =>
    reordered_same h hr hr', fun r e hr he => ?_, fun hpos => ⟨?_, ?_⟩⟩⟩
  · obtain ⟨-, -, -, -, -, hv⟩ := reordered_error h hr he
    exact hv
  · rintro ⟨r, hr⟩
    exact reordered_accepted h hr hpos
  · rintro ⟨r', hr'⟩
    exact reordered_accepted h.symm hr' (NoNegative.reordered hpos h)

/-! ## Rows -/

theorem isOk_iff {α : Type} {r : Except Thrown α} : r.isOk = true ↔ ∃ a, r = .ok a := by
  cases r <;> simp [Except.isOk, Except.toBool]

/-- A line of a Payment row, as QuickBooks writes it. -/
def lineJson (amount : ℚ) (links : List (String × String)) : Value :=
  .obj [("Amount".toList, .num amount), ("LinkedTxn".toList, .arr (links.map fun (kind, id) =>
    .obj [("TxnType".toList, .str kind.toList), ("TxnId".toList, .str id.toList)]))]

def paymentJson (total : ℚ) (lines : List Value) : JsonObject :=
  [("TotalAmt".toList, .num total), ("Line".toList, .arr lines)]

theorem reordered_paymentJson (total : ℚ) {lines lines' : List Value} (h : lines.Perm lines') :
    Reordered (paymentJson total lines) (paymentJson total lines') :=
  ⟨rfl, lines, lines', rfl, rfl, h⟩

/-- $500 of cash and a $100 credit memo against a $600 line, and the same lines the other way round. -/
theorem funded_line_split :
    ∃ row row' r r', readPaymentApplications asciiCase row [] = .ok r ∧
      readPaymentApplications asciiCase row' [] = .ok r' ∧ r.cash ≠ [] ∧ r.credits ≠ [] ∧
      (∃ lines attributions, readPaymentLines asciiCase row [] = .ok lines ∧ Conserved lines attributions r) ∧
      SameApplications r r' := by
  let invoice := lineJson 600 [("Invoice", "71")]
  let credit := lineJson 100 [("CreditMemo", "73")]
  let r : PaymentApplications := ⟨⟨50000, by decide, by decide⟩, [⟨"71".toList, ⟨50000, by decide, by decide⟩⟩],
    [("73".toList, [⟨"71".toList, ⟨10000, by decide, by decide⟩⟩])]⟩
  have hr : readPaymentApplications asciiCase (paymentJson 500 [invoice, credit]) [] = .ok r := by decide +kernel
  have hr' : readPaymentApplications asciiCase (paymentJson 500 [credit, invoice]) [] = .ok r := by decide +kernel
  obtain ⟨hconserved, hreordered⟩ := payment_split asciiCase
  have hsame := (hreordered _ _ [] [] (reordered_paymentJson 500 (.swap credit invoice []))).1 r r hr hr'
  exact ⟨_, _, r, r, hr, hr', by decide, by decide, hconserved _ _ r hr, hsame⟩

/-- Ninety trillion dollars on two invoices and off a third: as cash they pass one by one if the line off stands
between them, and their running total is no safe integer if it stands last. -/
theorem reordered_refused : ∃ row row', Reordered row row' ∧
    (∃ r, readPaymentApplications asciiCase row [] = .ok r) ∧
    ¬ ∃ r, readPaymentApplications asciiCase row' [] = .ok r := by
  let first := lineJson (9 * 10 ^ 13) [("Invoice", "1")]
  let off := lineJson (-9 * 10 ^ 13) [("Invoice", "2")]
  let last := lineJson (9 * 10 ^ 13) [("Invoice", "3")]
  have haccepted : (readPaymentApplications asciiCase (paymentJson (9 * 10 ^ 13) [first, off, last]) []).isOk = true := by
    decide +kernel
  have hrefused : (readPaymentApplications asciiCase (paymentJson (9 * 10 ^ 13) [first, last, off]) []).isOk = false := by
    decide +kernel
  refine ⟨_, _, reordered_paymentJson (9 * 10 ^ 13) ((List.Perm.swap last off []).cons first), ?_, ?_⟩
  · exact isOk_iff.1 haccepted
  · rw [← isOk_iff, hrefused]
    decide

end Recouple.Qbo
