import Recouple.Qbo.SplitReading

/-!
# What a split is, whatever the order of the lines

`Split` says what the cash and the credits of a payment are, from the invoice lines and the credit lines
alone: no running totals, no claimed indices. `splitSorted_ok` ties the code to it, and `Split.perm` says
that it does not see the order of the lines.
-/

namespace Recouple.Qbo
open Js KeyedFold

/-! ## Credits as they are recorded -/

/-- A credit memo and what it was applied to. -/
abbrev CreditLog := List (Text × LedgerApplication)

/-- The `Map` after these were pushed. -/
def record (credits : Credits) (log : CreditLog) : Credits :=
  log.foldl (fun credits entry => Groups.push entry.1 entry.2 credits) credits

theorem record_append (credits : Credits) (log log' : CreditLog) :
    record credits (log ++ log') = record (record credits log) log' := List.foldl_append

/-- A credit memo's applications. -/
theorem rowsAt_record (memo : Text) : ∀ (log : CreditLog) (credits : Credits),
    Groups.rowsAt (record credits log) memo =
      Groups.rowsAt credits memo ++ (log.filter fun entry => entry.1 = memo).map (·.2)
  | [], credits => by simp [record]
  | entry :: log, credits => by
    have ih := rowsAt_record memo log (Groups.push entry.1 entry.2 credits)
    rw [record, List.foldl_cons]
    rw [record] at ih
    rw [ih, Groups.rowsAt_push]
    by_cases h : entry.1 = memo <;> simp [h]

theorem flatMap_push (memo : Text) (application : LedgerApplication) : ∀ credits : Credits,
    ((Groups.push memo application credits).flatMap (·.2)).Perm (application :: credits.flatMap (·.2))
  | [] => by simp [Groups.push]
  | group :: credits => by
    rw [Groups.push]
    split_ifs with h
    · simp only [List.flatMap_cons, List.append_assoc, List.singleton_append]
      exact List.perm_middle
    · simp only [List.flatMap_cons]
      exact ((flatMap_push memo application credits).append_left _).trans List.perm_middle

/-- Every application that was pushed is in the map once. -/
theorem flatMap_record : ∀ (log : CreditLog) (credits : Credits),
    ((record credits log).flatMap (·.2)).Perm (credits.flatMap (·.2) ++ log.map (·.2))
  | [], credits => by simp [record]
  | entry :: log, credits => by
    rw [record, List.foldl_cons]
    have ih := flatMap_record log (Groups.push entry.1 entry.2 credits)
    refine ih.trans (((flatMap_push _ _ _).append_right _).trans ?_)
    rw [List.map_cons, List.cons_append]
    exact List.perm_middle.symm

/-! ## Sorting the lines -/

def invoiceLineOf (line : PaymentLine) : Option InvoiceLine :=
  match line.invoiceId, line.creditMemoId, line.journalEntryId with
  | some invoiceId, none, none => some ⟨line, invoiceId⟩
  | _, _, _ => none

def creditLineOf (line : PaymentLine) : Option CreditLine :=
  match line.invoiceId, line.creditMemoId, line.journalEntryId with
  | none, _, some _ => some ⟨line, none⟩
  | none, some creditMemoId, none => some ⟨line, some creditMemoId⟩
  | _, _, _ => none

/-- An invoice and a credit memo on one line. -/
def sameLineOf (line : PaymentLine) : Option (Text × LedgerApplication) :=
  match line.invoiceId, line.creditMemoId, line.journalEntryId with
  | some invoiceId, some creditMemoId, none => some (creditMemoId, ⟨invoiceId, line.amountCents⟩)
  | _, _, _ => none

theorem foldl_sortLine : ∀ (lines : List PaymentLine) (sorted : Sorted),
    lines.foldl sortLine sorted = ⟨record sorted.credits (lines.filterMap sameLineOf),
      sorted.invoiceLines ++ lines.filterMap invoiceLineOf, sorted.creditLines ++ lines.filterMap creditLineOf⟩
  | [], sorted => by simp [record]
  | line :: lines, sorted => by
    rw [List.foldl_cons, foldl_sortLine lines]
    obtain ⟨path, amount, invoice, memo, journal⟩ := line
    cases invoice <;> cases memo <;> cases journal <;>
      simp [sortLine, sameLineOf, invoiceLineOf, creditLineOf, record, applyCredit, List.filterMap_cons]

theorem sortLines_eq (lines : List PaymentLine) : sortLines lines =
    ⟨record [] (lines.filterMap sameLineOf), lines.filterMap invoiceLineOf, lines.filterMap creditLineOf⟩ := by
  rw [sortLines, foldl_sortLine]
  simp

/-! ## The split -/

/-- A credit line without its place: its memo, if it has one, and its amount. -/
abbrev Credit := Option Text × Cents

def CreditLine.asCredit (c : CreditLine) : Credit := (c.creditMemoId, c.line.amountCents)

/-- What credits on an invoice line record. -/
def logOn (application : Credit → LedgerApplication) (credits : List Credit) : CreditLog :=
  credits.filterMap fun c => c.1.map (·, application c)

theorem foldl_applyCredit (application : Credit → LedgerApplication) : ∀ (creditLines : List CreditLine)
    (credits : Credits),
    creditLines.foldl (fun credits c => applyCredit c.creditMemoId (application c.asCredit) credits) credits =
      record credits (logOn application (creditLines.map (·.asCredit)))
  | [], credits => rfl
  | c :: creditLines, credits => by
    rw [List.foldl_cons, foldl_applyCredit application creditLines]
    obtain ⟨line, memo⟩ := c
    cases memo <;> simp [applyCredit, logOn, CreditLine.asCredit, record]

/-- Each credit is for an amount that one credit and one invoice line have. -/
def Forced (invoices : List LedgerApplication) (credits : List Credit) : Prop :=
  ∀ c ∈ credits, (invoices.map (·.amountCents)).count c.2 = 1 ∧ (credits.map (·.2)).count c.2 = 1

/-- The invoice line of this amount. -/
def settledBy (invoices : List LedgerApplication) (c : Credit) : LedgerApplication :=
  (invoices.find? fun a => a.amountCents = c.2).getD ⟨[], c.2⟩

/-- The cash and the credits of a payment with these invoice lines and credit lines. -/
inductive Split (invoices : List LedgerApplication) : List Credit → List LedgerApplication → CreditLog → Prop
  /-- No credit line: every invoice line is cash. -/
  | cash : Split invoices [] invoices []
  /-- One invoice line: the cash is the line less the credits. -/
  | one {credits : List Credit} {only : LedgerApplication} {cash : Cents} :
    credits ≠ [] → invoices = [only] → cash.val = only.amountCents.val - (credits.map (·.2.val)).sum →
      0 ≤ cash.val → Split invoices credits (if 0 < cash.val then [⟨only.invoiceExternalId, cash⟩] else [])
        (logOn (fun c => ⟨only.invoiceExternalId, c.2⟩) credits)
  /-- Otherwise each credit settles the one invoice line of its amount, and the rest is cash. -/
  | several {credits : List Credit} : credits ≠ [] → invoices.length ≠ 1 → Forced invoices credits →
      Split invoices credits (invoices.filter fun a => a.amountCents ∉ credits.map (·.2))
        (logOn (settledBy invoices) credits)

/-! ## The split does not see the order of the lines -/

section
variable {invoices invoices' cash : List LedgerApplication} {credits credits' : List Credit} {log : CreditLog}

theorem Forced.perm (h : Forced invoices credits) (hi : invoices.Perm invoices') (hc : credits.Perm credits') :
    Forced invoices' credits' := fun c hmem => by
  obtain ⟨h1, h2⟩ := h c (hc.mem_iff.2 hmem)
  rw [(hi.map _).count_eq] at h1
  rw [(hc.map _).count_eq] at h2
  exact ⟨h1, h2⟩

/-- The line of an amount that one line has. -/
theorem settledBy_mem {c : Credit} (h : (invoices.map (·.amountCents)).count c.2 = 1) :
    settledBy invoices c ∈ invoices ∧ (settledBy invoices c).amountCents = c.2 := by
  have hmem : c.2 ∈ invoices.map (·.amountCents) := List.count_pos_iff.1 (by omega)
  obtain ⟨a, ha, hac⟩ := List.mem_map.1 hmem
  obtain ⟨b, hb⟩ : ∃ b, invoices.find? (fun a => a.amountCents = c.2) = some b :=
    Option.isSome_iff_exists.1 (List.find?_isSome.2 ⟨a, ha, by simpa using hac⟩)
  rw [settledBy, hb]
  exact ⟨List.mem_of_find?_eq_some hb, by simpa using List.find?_some hb⟩

/-- Two lines of an amount that one line has are one line. -/
theorem eq_of_count_eq_one {a b : LedgerApplication} {amount : Cents}
    (h : (invoices.map (·.amountCents)).count amount = 1) (ha : a ∈ invoices) (hb : b ∈ invoices)
    (haa : a.amountCents = amount) (hba : b.amountCents = amount) : a = b := by
  rw [List.count_eq_length_filter, List.filter_map, List.length_map, List.length_eq_one_iff] at h
  obtain ⟨x, hx⟩ := h
  have hmem : ∀ y ∈ invoices, y.amountCents = amount → y = x := fun y hy hya => by
    have : y ∈ invoices.filter ((· == amount) ∘ fun a : LedgerApplication => a.amountCents) :=
      List.mem_filter.2 ⟨hy, by simp [hya]⟩
    rw [hx] at this
    exact List.mem_singleton.1 this
  rw [hmem a ha haa, hmem b hb hba]

theorem settledBy_perm {c : Credit} (h : (invoices.map (·.amountCents)).count c.2 = 1)
    (hi : invoices.Perm invoices') : settledBy invoices' c = settledBy invoices c := by
  have h' := h
  rw [(hi.map _).count_eq] at h'
  obtain ⟨hm, ha⟩ := settledBy_mem h
  obtain ⟨hm', ha'⟩ := settledBy_mem h'
  exact eq_of_count_eq_one h (hi.mem_iff.2 hm') hm ha' ha

theorem logOn_perm {f g : Credit → LedgerApplication} (hc : credits.Perm credits') (h : ∀ c ∈ credits, f c = g c) :
    (logOn f credits).Perm (logOn g credits') := by
  have hfg : logOn f credits = logOn g credits := List.filterMap_congr fun c hmem => by rw [h c hmem]
  rw [hfg]
  exact hc.filterMap _

/-- **Lines in another order split alike.** -/
theorem Split.perm (h : Split invoices credits cash log) (hi : invoices.Perm invoices')
    (hc : credits.Perm credits') :
    ∃ cash' log', Split invoices' credits' cash' log' ∧ cash.Perm cash' ∧ log.Perm log' := by
  cases h with
  | cash =>
    rw [List.nil_perm] at hc
    subst hc
    exact ⟨invoices', [], .cash, hi, .refl _⟩
  | @one _ only c hne hone hval hpos =>
    subst hone
    rw [List.singleton_perm] at hi
    subst hi
    have hval' : c.val = only.amountCents.val - (credits'.map (·.2.val)).sum := by
      rw [hval, (hc.map _).sum_eq]
    exact ⟨_, _, .one (fun e => hne (List.perm_nil.1 (e ▸ hc))) rfl hval' hpos, .refl _,
      logOn_perm hc fun _ _ => rfl⟩
  | several hne hlen hforced =>
    refine ⟨_, _, .several (fun e => hne (List.perm_nil.1 (e ▸ hc))) (hi.length_eq ▸ hlen) (hforced.perm hi hc), ?_,
      logOn_perm hc fun c hmem => (settledBy_perm (hforced c hmem).1 hi).symm⟩
    have hmem : ∀ a : LedgerApplication, a.amountCents ∈ credits.map (·.2) ↔ a.amountCents ∈ credits'.map (·.2) :=
      fun a => (hc.map _).mem_iff
    simp only [hmem]
    exact hi.filter _

/-- The lines settle the split. -/
theorem Split.unique {cash' : List LedgerApplication} {log' : CreditLog} (h : Split invoices credits cash log)
    (h' : Split invoices credits cash' log') : cash = cash' ∧ log = log' := by
  cases h with
  | cash =>
    cases h' with
    | cash => exact ⟨rfl, rfl⟩
    | one hne => exact absurd rfl hne
    | several hne => exact absurd rfl hne
  | @one _ only c hne hone hval hpos =>
    subst hone
    cases h' with
    | cash => exact absurd rfl hne
    | @one _ only' c' _ hone' hval' =>
      cases hone'
      obtain rfl : c = c' := Cents.ext (by omega)
      exact ⟨rfl, rfl⟩
    | several _ hlen => exact absurd rfl hlen
  | several hne hlen hforced =>
    cases h' with
    | cash => exact absurd rfl hne
    | one _ hone =>
      subst hone
      exact absurd rfl hlen
    | several => exact ⟨rfl, rfl⟩

end

end Recouple.Qbo
