import Mathlib
import Recouple.Core.Reconciliation

/-!
# When the reconciliation does not depend on the order of its lists

`result` is what `reconcileDeductions` computes, read off the two lists without its loops
(`reconcileDeductions_ok`), and `Paired` what a match means. From there:

* **`reconcile_stable_iff`**: the call answers, the answer accounts for every line and case once, matches
  exactly the pairs that are each other's only exact candidate, and is the same for every order of both
  lists, if and only if the amounts are safe, the dates it has to compare are days, and the comparators
  tell the lines and the cases left open apart.
* **`two_memos_reversed`**: two lines of one transaction that differ in their memo alone come out in the
  order they came in.
-/

namespace Recouple.Books
open Js Groups KeyedFold SortByKey

/-! ## The comparators order by keys -/

theorem compareText_compares (a b : Text) : Compares (compareText a b) (codeUnits a) (codeUnits b) := by
  unfold compareText
  rcases textLt_trichotomy a b with h | rfl | h
  · have hne : codeUnits a ≠ codeUnits b := h.ne
    exact ⟨by simp [h, show codeUnits a < codeUnits b from h], by simp [h, hne]⟩
  · exact ⟨by simp [textLt_irrefl], by simp [textLt_irrefl]⟩
  · have hn : ¬ textLt a b := fun h' => textLt_irrefl a (textLt_trans h' h)
    have hne : codeUnits a ≠ codeUnits b := (show codeUnits b < codeUnits a from h).ne'
    have hlt : ¬ codeUnits a < codeUnits b := hn
    exact ⟨by simp [h, hn, hlt], by simp [h, hn, hne]⟩

/-- What lines are ordered by. -/
def lineSortKey (l : GeneralLedgerLine) : List Nat ×ₗ Int ×ₗ List Nat ×ₗ List Nat ×ₗ List Nat :=
  toLex (codeUnits l.date, toLex (lineAmount l, toLex (codeUnits (l.accountExternalId.getD []),
    toLex (codeUnits (l.transactionExternalId.getD []), codeUnits (l.documentNumber.getD [])))))

/-- What cases are ordered by. -/
def caseSortKey (c : BooksCase) : List Nat ×ₗ Int ×ₗ List Nat :=
  toLex (codeUnits (c.date.getD []), toLex (c.amountCents.val, codeUnits c.caseId))

theorem byLine_compares (a b : GeneralLedgerLine) : Compares (byLine a b) (lineSortKey a) (lineSortKey b) :=
  (compareText_compares _ _).orElse <| (compares_sub _ _).orElse <| (compareText_compares _ _).orElse <|
    (compareText_compares _ _).orElse (compareText_compares _ _)

theorem byCase_compares (a b : BooksCase) : Compares (byCase a b) (caseSortKey a) (caseSortKey b) :=
  (compareText_compares _ _).orElse <| (compares_sub _ _).orElse (compareText_compares _ _)

theorem lineLe_iff (a b : GeneralLedgerLine) : lineLe a b ↔ lineSortKey a ≤ lineSortKey b :=
  (byLine_compares a b).le

theorem caseLe_iff (a b : BooksCase) : caseLe a b ↔ caseSortKey a ≤ caseSortKey b := (byCase_compares a b).le

theorem lineSortKey_eq {a b : GeneralLedgerLine} (h : lineSortKey a = lineSortKey b) :
    a.date = b.date ∧ lineAmount a = lineAmount b := by
  simp only [lineSortKey, EmbeddingLike.apply_eq_iff_eq, Prod.mk.injEq] at h
  exact ⟨codeUnits_injective h.1, h.2.1⟩

/-! ## Amounts -/

/-- Debit less credit is a safe integer. -/
def Safe (line : GeneralLedgerLine) : Prop := InRange (line.debitCents.val - line.creditCents.val)

/-- What a line moved, as `lineAmountCents` returns it. -/
def amountOf (line : GeneralLedgerLine) : Cents :=
  if h : InRange (lineAmount line) then ⟨lineAmount line, h.1, h.2⟩ else ZERO

theorem safe_iff (line : GeneralLedgerLine) : Safe line ↔ InRange (lineAmount line) := by
  unfold Safe InRange lineAmount
  omega

theorem amountOf_val {line : GeneralLedgerLine} (h : Safe line) : (amountOf line).val = lineAmount line := by
  simp [amountOf, (safe_iff line).1 h]

theorem lineAmountCents_ok {line : GeneralLedgerLine} {c : Cents} :
    lineAmountCents line = .ok c ↔ c.val = lineAmount line := by
  unfold lineAmountCents lineAmount
  constructor
  · intro h
    obtain ⟨net, hnet, h⟩ := bind_ok.1 h
    have hn := subCents_ok.1 hnet
    split at h
    · have := cents_ok.1 h
      omega
    · cases h
      omega
  · intro h
    have hl := c.lower
    have hu := c.upper
    obtain ⟨net, hnet⟩ := subCents_returns.2 (show InRange (line.debitCents.val - line.creditCents.val) by
      unfold InRange
      omega)
    have hn := subCents_ok.1 hnet
    refine bind_ok.2 ⟨net, hnet, ?_⟩
    split
    · exact cents_ok.2 (by omega)
    · rw [show net = c from Cents.ext (by omega)]

theorem lineAmountCents_eq {line : GeneralLedgerLine} (h : Safe line) :
    lineAmountCents line = .ok (amountOf line) := lineAmountCents_ok.2 (amountOf_val h)

theorem safe_of_ok {line : GeneralLedgerLine} {c : Cents} (h : lineAmountCents line = .ok c) : Safe line := by
  rw [safe_iff, ← lineAmountCents_ok.1 h]
  exact c.inRange

/-! ## The keys of the maps -/

theorem keyOf_inj {m n : Int} {s t : Text} : keyOf m s = keyOf n t ↔ m = n ∧ s = t := by
  constructor
  · intro h
    have hd : ∀ r : Text, NoDigitNext ('|' :: r) := fun r c hc => by
      obtain rfl : '|' = c := by simpa using hc
      decide
    obtain ⟨hm, hst⟩ := decimalInt_append_inj (hd s) (hd t) h
    exact ⟨hm, (List.cons.inj hst).2⟩
  · rintro ⟨rfl, rfl⟩
    rfl

/-- The lines of an amount and a day. -/
def linesAt (lines : List GeneralLedgerLine) (amount : Int) (date : Text) : List GeneralLedgerLine :=
  lines.filter fun line => lineAmount line = amount ∧ line.date = date

/-- The cases of an amount and a day. -/
def casesAt (cases : List BooksCase) (amount : Int) (date : Text) : List BooksCase :=
  cases.filter fun one => one.amountCents.val = amount ∧ one.date = some date

/-- The line moved something, and the line and the case are the only ones of its amount and day: each
is the other's sole exact candidate. -/
def Paired (lines : List GeneralLedgerLine) (cases : List BooksCase) (line : GeneralLedgerLine)
    (one : BooksCase) : Prop :=
  lineAmount line ≠ 0 ∧ linesAt lines (lineAmount line) line.date = [line] ∧
    casesAt cases (lineAmount line) line.date = [one]

/-- No case is matched with the line. -/
def OpenLine (lines : List GeneralLedgerLine) (cases : List BooksCase) (line : GeneralLedgerLine) : Prop :=
  ∀ one, ¬ Paired lines cases line one

/-- No line is matched with the case. -/
def OpenCase (lines : List GeneralLedgerLine) (cases : List BooksCase) (one : BooksCase) : Prop :=
  ∀ line, ¬ Paired lines cases line one

/-- The lines that moved something, by amount and day. -/
def lineGroups (lines : List GeneralLedgerLine) : List (Text × List GeneralLedgerLine) :=
  groupBy (fun line => keyOf (lineAmount line) line.date) (lines.filter fun line => lineAmount line ≠ 0)

theorem addLine_eq {line : GeneralLedgerLine} (h : Safe line) (groups : List (Text × List GeneralLedgerLine)) :
    addLine groups line = .ok (if lineAmount line ≠ 0 then push (keyOf (lineAmount line) line.date) line groups
      else groups) := by
  unfold addLine
  rw [lineAmountCents_eq h]
  simp only [bind, Except.bind, amountOf_val h, ite_not]

theorem foldlM_addLine : ∀ {lines : List GeneralLedgerLine} {groups : List (Text × List GeneralLedgerLine)},
    (∀ line ∈ lines, Safe line) → lines.foldlM addLine groups =
      .ok (lines.foldl (fun groups line => if lineAmount line ≠ 0 then
        push (keyOf (lineAmount line) line.date) line groups else groups) groups)
  | [], _, _ => rfl
  | line :: lines, groups, h => by
    rw [List.forall_mem_cons] at h
    rw [List.foldlM_cons, addLine_eq h.1, List.foldl_cons, ← foldlM_addLine h.2]
    rfl

theorem linesByKey_eq {lines : List GeneralLedgerLine} (h : ∀ line ∈ lines, Safe line) :
    linesByKey lines = .ok (lineGroups lines) := by
  rw [linesByKey, foldlM_addLine h, lineGroups, groupBy, List.foldl_filter]
  simp only [decide_eq_true_eq]

theorem safe_of_foldlM : ∀ {lines : List GeneralLedgerLine} {groups groups'},
    lines.foldlM addLine groups = .ok groups' → ∀ line ∈ lines, Safe line
  | [], _, _, _, line, hl => by simp at hl
  | line :: lines, groups, groups', h, l, hl => by
    rw [List.foldlM_cons] at h
    obtain ⟨g, hg, h⟩ := bind_ok.1 h
    obtain ⟨c, hc, -⟩ := bind_ok.1 hg
    rcases List.mem_cons.1 hl with rfl | hl
    · exact safe_of_ok hc
    · exact safe_of_foldlM h l hl

theorem rowsAt_casesByKey (cases : List BooksCase) (amount : Int) (date : Text) :
    rowsAt (casesByKey cases) (keyOf amount date) = casesAt cases amount date := by
  unfold casesByKey casesAt
  induction cases using List.reverseRecOn with
  | nil => rfl
  | append_singleton cases one ih =>
    rw [List.foldl_append, List.filter_append, ← ih]
    cases hd : one.date with
    | none => simp [hd]
    | some d =>
      simp only [List.foldl_cons, List.foldl_nil, hd, rowsAt_push, keyOf_inj]
      by_cases h : one.amountCents.val = amount ∧ d = date <;> simp [h, hd]

/-! ## The matched pairs -/

/-- What the third loop collects. -/
def pairsOf (lines : List GeneralLedgerLine) (cases : List BooksCase) : List (GeneralLedgerLine × BooksCase) :=
  matchedPairs (lineGroups lines) (casesByKey cases)

theorem lineGroups_at {lines : List GeneralLedgerLine} {k : Text} {line : GeneralLedgerLine} :
    (k, [line]) ∈ lineGroups lines ↔ k = keyOf (lineAmount line) line.date ∧ lineAmount line ≠ 0 ∧
      linesAt lines (lineAmount line) line.date = [line] := by
  have hfilter : ∀ m d, m ≠ 0 → (lines.filter fun l => lineAmount l ≠ 0).filter
      (fun l => keyOf (lineAmount l) l.date = keyOf m d) = linesAt lines m d := fun m d hm => by
    rw [List.filter_filter, linesAt]
    refine List.filter_congr fun l _ => ?_
    by_cases h : lineAmount l = m <;> simp [keyOf_inj, h, hm]
  rw [lineGroups, mem_groupBy]
  constructor
  · rintro ⟨-, h⟩
    have hmem : line ∈ [line] := by simp
    rw [h, List.mem_filter, List.mem_filter] at hmem
    obtain ⟨⟨-, hm⟩, hk⟩ := hmem
    have hm : lineAmount line ≠ 0 := by simpa using hm
    obtain rfl : keyOf (lineAmount line) line.date = k := by simpa using hk
    exact ⟨rfl, hm, by rw [← hfilter _ _ hm, ← h]⟩
  · rintro ⟨rfl, hm, h⟩
    exact ⟨by simp, by rw [hfilter _ _ hm, h]⟩

theorem mem_pairsOf {lines : List GeneralLedgerLine} {cases : List BooksCase} {line : GeneralLedgerLine}
    {one : BooksCase} : (line, one) ∈ pairsOf lines cases ↔ Paired lines cases line one := by
  unfold pairsOf matchedPairs
  rw [List.mem_filterMap]
  constructor
  · rintro ⟨⟨k, keyLines⟩, hg, h⟩
    dsimp only at h
    split at h
    · rename_i l c hc
      cases h
      obtain ⟨rfl, hm, hl⟩ := lineGroups_at.1 hg
      rw [rowsAt_casesByKey] at hc
      exact ⟨hm, hl, hc⟩
    · cases h
  · rintro ⟨hm, hl, hc⟩
    refine ⟨(keyOf (lineAmount line) line.date, [line]), lineGroups_at.2 ⟨rfl, hm, hl⟩, ?_⟩
    dsimp only
    rw [rowsAt_casesByKey, hc]

theorem keys_sublist {α β κ : Type*} {f : α → Option β} {key : α → κ} {key' : β → κ} :
    ∀ {l : List α}, (∀ a ∈ l, ∀ b, f a = some b → key' b = key a) →
      ((l.filterMap f).map key').Sublist (l.map key)
  | [], _ => List.Sublist.slnil
  | a :: l, h => by
    rw [List.forall_mem_cons] at h
    have ih := keys_sublist h.2
    cases hf : f a with
    | none =>
      rw [List.filterMap_cons_none hf]
      exact ih.cons _
    | some b =>
      rw [List.filterMap_cons_some hf, List.map_cons, List.map_cons, h.1 b hf]
      exact ih.cons_cons _

/-- No two pairs were matched under one key. -/
theorem nodup_pairKeys (lines : List GeneralLedgerLine) (cases : List BooksCase) :
    ((pairsOf lines cases).map fun pair => keyOf (lineAmount pair.1) pair.1.date).Nodup := by
  refine List.Sublist.nodup (keys_sublist ?_) (nodup_keys _ _)
  rintro ⟨k, keyLines⟩ hg pair h
  dsimp only at h
  split at h
  · cases h
    exact (lineGroups_at.1 hg).1.symm
  · cases h

theorem nodup_matchedLines (lines : List GeneralLedgerLine) (cases : List BooksCase) :
    ((pairsOf lines cases).map Prod.fst).Nodup := by
  have h := nodup_pairKeys lines cases
  rw [show (fun pair : GeneralLedgerLine × BooksCase => keyOf (lineAmount pair.1) pair.1.date) =
    (fun line => keyOf (lineAmount line) line.date) ∘ Prod.fst from rfl, ← List.map_map] at h
  exact h.of_map

theorem Paired.case_eq {lines : List GeneralLedgerLine} {cases : List BooksCase} {line : GeneralLedgerLine}
    {one : BooksCase} (h : Paired lines cases line one) :
    one ∈ cases ∧ one.amountCents.val = lineAmount line ∧ one.date = some line.date := by
  have hm : one ∈ casesAt cases (lineAmount line) line.date := by rw [h.2.2]; simp
  simpa [casesAt] using hm

theorem Paired.mem {lines : List GeneralLedgerLine} {cases : List BooksCase} {line : GeneralLedgerLine}
    {one : BooksCase} (h : Paired lines cases line one) : line ∈ lines := by
  have hm : line ∈ linesAt lines (lineAmount line) line.date := by rw [h.2.1]; simp
  exact (List.mem_filter.1 hm).1

theorem nodup_matchedCases (lines : List GeneralLedgerLine) (cases : List BooksCase) :
    ((pairsOf lines cases).map Prod.snd).Nodup := by
  have h : (((pairsOf lines cases).map Prod.snd).map fun one =>
      one.date.map (keyOf one.amountCents.val)).Nodup := by
    have hkeys : ((pairsOf lines cases).map Prod.snd).map (fun one => one.date.map (keyOf one.amountCents.val)) =
        ((pairsOf lines cases).map fun pair => keyOf (lineAmount pair.1) pair.1.date).map some := by
      rw [List.map_map, List.map_map]
      refine List.map_congr_left fun pair hp => ?_
      obtain ⟨-, hamount, hdate⟩ := (mem_pairsOf.1 hp).case_eq
      simp [hamount, hdate]
    rw [hkeys]
    exact (nodup_pairKeys lines cases).map (Option.some_injective _)
  exact h.of_map

theorem not_mem_matchedLines {lines : List GeneralLedgerLine} {cases : List BooksCase}
    {line : GeneralLedgerLine} :
    line ∉ (pairsOf lines cases).map Prod.fst ↔ OpenLine lines cases line := by
  simp only [List.mem_map, Prod.exists, exists_and_right, exists_eq_right, mem_pairsOf, not_exists, OpenLine]

theorem not_mem_matchedCases {lines : List GeneralLedgerLine} {cases : List BooksCase} {one : BooksCase} :
    one ∉ (pairsOf lines cases).map Prod.snd ↔ OpenCase lines cases one := by
  simp only [List.mem_map, Prod.exists, exists_eq_right, mem_pairsOf, not_exists, OpenCase]

/-! ## The result without the loops -/

/-- The lines no case is matched with. -/
def openLines (lines : List GeneralLedgerLine) (cases : List BooksCase) : List GeneralLedgerLine :=
  lines.filter fun line => line ∉ (pairsOf lines cases).map Prod.fst

/-- The cases no line is matched with. -/
def openCases (lines : List GeneralLedgerLine) (cases : List BooksCase) : List BooksCase :=
  cases.filter fun one => one ∉ (pairsOf lines cases).map Prod.snd

theorem mem_openLines {lines : List GeneralLedgerLine} {cases : List BooksCase} {line : GeneralLedgerLine} :
    line ∈ openLines lines cases ↔ line ∈ lines ∧ OpenLine lines cases line := by
  rw [openLines, List.mem_filter, decide_eq_true_eq, not_mem_matchedLines]

theorem mem_openCases {lines : List GeneralLedgerLine} {cases : List BooksCase} {one : BooksCase} :
    one ∈ openCases lines cases ↔ one ∈ cases ∧ OpenCase lines cases one := by
  rw [openCases, List.mem_filter, decide_eq_true_eq, not_mem_matchedCases]

/-- The text is `YYYY-MM-DD`. -/
def IsDay (text : Text) : Prop := (dateParts text).isSome

/-- `near`, where it does not throw. -/
def nearBy (lineDate : Text) (caseDate : Option Text) : Bool := (near lineDate caseDate).toOption.getD false

theorem dayNumber_returns {text : Text} : (∃ n, dayNumber text = .ok n) ↔ IsDay text := by
  unfold dayNumber IsDay
  cases dateParts text <;> simp

theorem near_returns {lineDate : Text} {caseDate : Option Text} :
    (∃ b, near lineDate caseDate = .ok b) ↔ ∀ d, caseDate = some d → IsDay lineDate ∧ IsDay d := by
  cases caseDate with
  | none => simp [near]
  | some d =>
    simp only [Option.some.injEq, forall_eq', ← dayNumber_returns]
    constructor
    · rintro ⟨r, h⟩
      obtain ⟨a, ha, h⟩ := bind_ok.1 h
      obtain ⟨b, hb, -⟩ := bind_ok.1 h
      exact ⟨⟨a, ha⟩, ⟨b, hb⟩⟩
    · rintro ⟨⟨a, ha⟩, ⟨b, hb⟩⟩
      exact ⟨_, bind_ok.2 ⟨a, ha, bind_ok.2 ⟨b, hb, rfl⟩⟩⟩

theorem near_eq {lineDate : Text} {caseDate : Option Text}
    (h : ∀ d, caseDate = some d → IsDay lineDate ∧ IsDay d) :
    near lineDate caseDate = .ok (nearBy lineDate caseDate) := by
  obtain ⟨b, hb⟩ := near_returns.2 h
  rw [nearBy, hb]
  rfl

theorem filterThrowing_ok {α : Type} {p : α → Except BooksError Bool} {q : α → Bool} : ∀ {l : List α},
    (∀ a ∈ l, p a = .ok (q a)) → filterThrowing p l = .ok (l.filter q)
  | [], _ => rfl
  | a :: l, h => by
    rw [List.forall_mem_cons] at h
    rw [filterThrowing, h.1, filterThrowing_ok h.2, List.filter_cons]
    rfl

theorem filterThrowing_all {α : Type} {p : α → Except BooksError Bool} : ∀ {l r : List α},
    filterThrowing p l = .ok r → ∀ a ∈ l, ∃ b, p a = .ok b
  | [], _, _, a, ha => by simp at ha
  | x :: l, r, h, a, ha => by
    rw [filterThrowing] at h
    obtain ⟨b, hb, h⟩ := bind_ok.1 h
    obtain ⟨rest, hrest, -⟩ := bind_ok.1 h
    rcases List.mem_cons.1 ha with rfl | ha
    · exact ⟨b, hb⟩
    · exact filterThrowing_all hrest a ha

/-- The cases listed beside a line. -/
def candidateCases (opens : List BooksCase) (line : GeneralLedgerLine) : List BooksCase :=
  (opens.filter fun one => lineAmount line ≠ 0 ∧ one.amountCents.val = lineAmount line ∧
    nearBy line.date one.date = true).insertionSort caseLe

/-- The lines listed beside a case. -/
def candidateLines (opens : List GeneralLedgerLine) (one : BooksCase) : List GeneralLedgerLine :=
  (opens.filter fun line => lineAmount line = one.amountCents.val ∧
    nearBy line.date one.date = true).insertionSort lineLe

/-- The lines matched with a case, sorted. -/
def matchedRows (lines : List GeneralLedgerLine) (cases : List BooksCase) :
    List (GeneralLedgerLine × Cents × BooksCase) :=
  ((pairsOf lines cases).map fun pair => (pair.1, amountOf pair.1, pair.2)).insertionSort
    fun a b => lineLe a.1 b.1

def booksOnlyRows (lines : List GeneralLedgerLine) (cases : List BooksCase) :
    List (GeneralLedgerLine × Cents × List BooksCase) :=
  ((openLines lines cases).map fun line =>
    (line, amountOf line, candidateCases (openCases lines cases) line)).insertionSort
      fun a b => lineLe a.1 b.1

def caseOnlyRows (lines : List GeneralLedgerLine) (cases : List BooksCase) :
    List (BooksCase × List GeneralLedgerLine) :=
  ((openCases lines cases).map fun one => (one, candidateLines (openLines lines cases) one)).insertionSort
    fun a b => caseLe a.1 b.1

def result (lines : List GeneralLedgerLine) (cases : List BooksCase) : List ReconciliationRow :=
  ((matchedRows lines cases).map fun row => .matched row.1 row.2.1 row.2.2) ++
    ((booksOnlyRows lines cases).map fun row => .booksOnly row.1 row.2.1 row.2.2) ++
    ((caseOnlyRows lines cases).map fun row => .caseOnly row.1 row.2)

/-- Wherever a line and a case left open have one amount and the case a date, both dates are days. -/
def Datable (lines : List GeneralLedgerLine) (cases : List BooksCase) : Prop :=
  ∀ line ∈ lines, OpenLine lines cases line → ∀ one ∈ cases, OpenCase lines cases one →
    one.amountCents.val = lineAmount line → ∀ d, one.date = some d → IsDay line.date ∧ IsDay d

theorem amountOf_eq_iff {line : GeneralLedgerLine} (hs : Safe line) {c : Cents} :
    amountOf line = c ↔ lineAmount line = c.val := by rw [Cents.ext_iff, amountOf_val hs]

theorem booksOnlyRow_ok {opens : List BooksCase} {line : GeneralLedgerLine} (hs : Safe line)
    (hd : ∀ one ∈ opens, one.amountCents.val = lineAmount line → ∀ d, one.date = some d →
      IsDay line.date ∧ IsDay d) :
    booksOnlyRow opens line = .ok (line, amountOf line, candidateCases opens line) := by
  refine bind_ok.2 ⟨amountOf line, mapError_ok.2 (lineAmountCents_eq hs), ?_⟩
  refine bind_ok.2 ⟨opens.filter fun one => lineAmount line ≠ 0 ∧ one.amountCents.val = lineAmount line ∧
    nearBy line.date one.date = true, ?_, rfl⟩
  rw [candidatesOfLine, amountOf_val hs]
  split
  · rename_i h0
    simp [h0]
  · rename_i h0
    refine filterThrowing_ok fun one ho => ?_
    by_cases ha : lineAmount line = one.amountCents.val
    · rw [if_pos ((amountOf_eq_iff hs).2 ha).symm, near_eq (hd one ho ha.symm)]
      simp [h0, ha.symm]
    · rw [if_neg fun h => ha ((amountOf_eq_iff hs).1 h.symm)]
      simp [Ne.symm ha]

theorem caseOnlyRow_ok {opens : List GeneralLedgerLine} {one : BooksCase} (hs : ∀ line ∈ opens, Safe line)
    (hd : ∀ line ∈ opens, one.amountCents.val = lineAmount line → ∀ d, one.date = some d →
      IsDay line.date ∧ IsDay d) :
    caseOnlyRow opens one = .ok (one, candidateLines opens one) := by
  refine bind_ok.2 ⟨opens.filter fun line => lineAmount line = one.amountCents.val ∧
    nearBy line.date one.date = true, ?_, rfl⟩
  refine filterThrowing_ok fun line hl => ?_
  refine bind_ok.2 ⟨amountOf line, mapError_ok.2 (lineAmountCents_eq (hs line hl)), ?_⟩
  by_cases ha : lineAmount line = one.amountCents.val
  · rw [if_pos ((amountOf_eq_iff (hs line hl)).2 ha), near_eq (hd line hl ha.symm)]
    simp [ha]
  · rw [if_neg fun h => ha ((amountOf_eq_iff (hs line hl)).1 h)]
    simp [ha]

/-- **What the call returns where it returns.** -/
theorem reconcileDeductions_ok {lines : List GeneralLedgerLine} {cases : List BooksCase}
    (hs : ∀ line ∈ lines, Safe line) (hd : Datable lines cases) :
    reconcileDeductions lines cases = .ok (result lines cases) := by
  refine bind_ok.2 ⟨_, mapError_ok.2 (linesByKey_eq hs), ?_⟩
  refine bind_ok.2 ⟨_, mapM_ok fun pair hp => ?_, bind_ok.2 ⟨_, mapM_ok fun line hl => ?_,
    bind_ok.2 ⟨_, mapM_ok fun one ho => ?_, rfl⟩⟩⟩
  · exact bind_ok.2 ⟨_, mapError_ok.2 (lineAmountCents_eq (hs _ (mem_pairsOf.1 hp).mem)), rfl⟩
  · have hl := mem_openLines.1 hl
    refine booksOnlyRow_ok (hs line hl.1) fun one ho => ?_
    have ho := mem_openCases.1 ho
    exact hd line hl.1 hl.2 one ho.1 ho.2
  · have ho := mem_openCases.1 ho
    refine caseOnlyRow_ok (fun line hl => hs line (mem_openLines.1 hl).1) fun line hl => ?_
    have hl := mem_openLines.1 hl
    exact hd line hl.1 hl.2 one ho.1 ho.2

/-- Where the call returns, every amount was safe and every date it compared was a day. -/
theorem safe_of_reconcile {lines : List GeneralLedgerLine} {cases : List BooksCase}
    {rows : List ReconciliationRow} (h : reconcileDeductions lines cases = .ok rows) :
    (∀ line ∈ lines, Safe line) ∧ Datable lines cases := by
  obtain ⟨groups, hg, h⟩ := bind_ok.1 h
  have hs : ∀ line ∈ lines, Safe line := safe_of_foldlM (mapError_ok.1 hg)
  refine ⟨hs, fun line hl hopen one ho hopen' hamount => near_returns.1 ?_⟩
  obtain rfl : lineGroups lines = groups := by
    have := mapError_ok.1 hg
    rw [linesByKey_eq hs] at this
    exact Except.ok.inj this
  obtain ⟨_, -, h⟩ := bind_ok.1 h
  obtain ⟨_, -, h⟩ := bind_ok.1 h
  obtain ⟨_, hcases, -⟩ := bind_ok.1 h
  -- the case's own row asked for every line left open
  obtain ⟨row, hrow⟩ := mapM_all hcases one (mem_openCases.2 ⟨ho, hopen'⟩)
  obtain ⟨r, hr, -⟩ := bind_ok.1 hrow
  obtain ⟨b, hb⟩ := filterThrowing_all hr line (mem_openLines.2 ⟨hl, hopen⟩)
  obtain ⟨c, hc, hb⟩ := bind_ok.1 hb
  have hc := lineAmountCents_ok.1 (mapError_ok.1 hc)
  rw [if_pos (Cents.ext (by omega))] at hb
  exact ⟨b, hb⟩

/-! ## In another order -/

section
variable {lines lines' : List GeneralLedgerLine} {cases cases' : List BooksCase}

theorem eq_singleton_congr {α : Type*} {l l' : List α} {a : α} (h : l.Perm l') : l = [a] ↔ l' = [a] := by
  rw [← List.perm_singleton, ← List.perm_singleton]
  exact ⟨h.symm.trans, h.trans⟩

theorem paired_congr (hl : lines.Perm lines') (hc : cases.Perm cases') {line : GeneralLedgerLine}
    {one : BooksCase} : Paired lines cases line one ↔ Paired lines' cases' line one :=
  and_congr_right fun _ => and_congr (eq_singleton_congr (hl.filter _)) (eq_singleton_congr (hc.filter _))

theorem pairsOf_perm (hl : lines.Perm lines') (hc : cases.Perm cases') :
    (pairsOf lines cases).Perm (pairsOf lines' cases') :=
  (List.perm_ext_iff_of_nodup (nodup_matchedLines lines cases).of_map
    (nodup_matchedLines lines' cases').of_map).2 fun pair => by
      rw [mem_pairsOf, mem_pairsOf]
      exact paired_congr hl hc

theorem openLine_congr (hl : lines.Perm lines') (hc : cases.Perm cases') {line : GeneralLedgerLine} :
    OpenLine lines cases line ↔ OpenLine lines' cases' line :=
  forall_congr' fun _ => not_congr (paired_congr hl hc)

theorem openCase_congr (hl : lines.Perm lines') (hc : cases.Perm cases') {one : BooksCase} :
    OpenCase lines cases one ↔ OpenCase lines' cases' one :=
  forall_congr' fun _ => not_congr (paired_congr hl hc)

theorem openLines_perm (hl : lines.Perm lines') (hc : cases.Perm cases') :
    (openLines lines cases).Perm (openLines lines' cases') := by
  refine (hl.filter _).trans (List.Perm.of_eq (List.filter_congr fun line _ => ?_))
  rw [decide_eq_decide, not_mem_matchedLines, not_mem_matchedLines, openLine_congr hl hc]

theorem openCases_perm (hl : lines.Perm lines') (hc : cases.Perm cases') :
    (openCases lines cases).Perm (openCases lines' cases') := by
  refine (hc.filter _).trans (List.Perm.of_eq (List.filter_congr fun one _ => ?_))
  rw [decide_eq_decide, not_mem_matchedCases, not_mem_matchedCases, openCase_congr hl hc]

theorem safe_congr (hl : lines.Perm lines') (h : ∀ line ∈ lines, Safe line) : ∀ line ∈ lines', Safe line :=
  fun line hm => h line (hl.mem_iff.2 hm)

theorem datable_congr (hl : lines.Perm lines') (hc : cases.Perm cases') (h : Datable lines cases) :
    Datable lines' cases' := fun line hm ho one hm' ho' =>
  h line (hl.mem_iff.2 hm) ((openLine_congr hl hc).2 ho) one (hc.mem_iff.2 hm') ((openCase_congr hl hc).2 ho')

end

/-- The comparators tell the lines left open apart, and the cases left open. -/
structure Apart (lines : List GeneralLedgerLine) (cases : List BooksCase) : Prop where
  linesApart : ∀ a ∈ lines, ∀ b ∈ lines, OpenLine lines cases a → OpenLine lines cases b → byLine a b = 0 → a = b
  casesApart : ∀ a ∈ cases, ∀ b ∈ cases, OpenCase lines cases a → OpenCase lines cases b → byCase a b = 0 → a = b

section
variable {lines lines' : List GeneralLedgerLine} {cases cases' : List BooksCase}

theorem Apart.openLines (h : Apart lines cases) : ∀ a ∈ openLines lines cases, ∀ b ∈ openLines lines cases,
    lineSortKey a = lineSortKey b → a = b := fun a ha b hb he => by
  have ha := mem_openLines.1 ha
  have hb := mem_openLines.1 hb
  exact h.linesApart a ha.1 b hb.1 ha.2 hb.2 ((byLine_compares a b).eq.2 he)

theorem Apart.openCases (h : Apart lines cases) : ∀ a ∈ openCases lines cases, ∀ b ∈ openCases lines cases,
    caseSortKey a = caseSortKey b → a = b := fun a ha b hb he => by
  have ha := mem_openCases.1 ha
  have hb := mem_openCases.1 hb
  exact h.casesApart a ha.1 b hb.1 ha.2 hb.2 ((byCase_compares a b).eq.2 he)

theorem candidateCases_perm (h : Apart lines cases) (hl : lines.Perm lines') (hc : cases.Perm cases')
    (line : GeneralLedgerLine) :
    candidateCases (openCases lines cases) line = candidateCases (openCases lines' cases') line :=
  insertionSort_congr_of_apart caseLe_iff ((openCases_perm hl hc).filter _) fun a ha b hb =>
    h.openCases a (List.mem_filter.1 ha).1 b (List.mem_filter.1 hb).1

theorem candidateLines_perm (h : Apart lines cases) (hl : lines.Perm lines') (hc : cases.Perm cases')
    (one : BooksCase) :
    candidateLines (openLines lines cases) one = candidateLines (openLines lines' cases') one :=
  insertionSort_congr_of_apart lineLe_iff ((openLines_perm hl hc).filter _) fun a ha b hb =>
    h.openLines a (List.mem_filter.1 ha).1 b (List.mem_filter.1 hb).1

theorem Paired.eq_of_key {l l' : GeneralLedgerLine} {c c' : BooksCase} (h : Paired lines cases l c)
    (h' : Paired lines cases l' c') (hk : lineSortKey l = lineSortKey l') : l = l' ∧ c = c' := by
  obtain ⟨hd, hm⟩ := lineSortKey_eq hk
  obtain ⟨-, hl, hc⟩ := h
  obtain ⟨-, hl', hc'⟩ := h'
  rw [hd, hm] at hl hc
  rw [hl] at hl'
  rw [hc] at hc'
  exact ⟨List.singleton_inj.1 hl', List.singleton_inj.1 hc'⟩

theorem matchedRows_perm (hl : lines.Perm lines') (hc : cases.Perm cases') :
    matchedRows lines cases = matchedRows lines' cases' := by
  have hr : ∀ a b : GeneralLedgerLine × Cents × BooksCase, lineLe a.1 b.1 ↔
      lineSortKey a.1 ≤ lineSortKey b.1 := fun _ _ => lineLe_iff _ _
  refine insertionSort_congr_of_apart hr ((pairsOf_perm hl hc).map _) fun a ha b hb hk => ?_
  obtain ⟨⟨l, c⟩, hp, rfl⟩ := List.mem_map.1 ha
  obtain ⟨⟨l', c'⟩, hp', rfl⟩ := List.mem_map.1 hb
  obtain ⟨rfl, rfl⟩ := (mem_pairsOf.1 hp).eq_of_key (mem_pairsOf.1 hp') hk
  rfl

theorem booksOnlyRows_perm (h : Apart lines cases) (hl : lines.Perm lines') (hc : cases.Perm cases') :
    booksOnlyRows lines cases = booksOnlyRows lines' cases' := by
  unfold booksOnlyRows
  simp only [← candidateCases_perm h hl hc]
  have hr : ∀ a b : GeneralLedgerLine × Cents × List BooksCase, lineLe a.1 b.1 ↔
      lineSortKey a.1 ≤ lineSortKey b.1 := fun _ _ => lineLe_iff _ _
  refine insertionSort_congr_of_apart hr ((openLines_perm hl hc).map _) fun a ha b hb hk => ?_
  obtain ⟨l, hm, rfl⟩ := List.mem_map.1 ha
  obtain ⟨l', hm', rfl⟩ := List.mem_map.1 hb
  obtain rfl := h.openLines l hm l' hm' hk
  rfl

theorem caseOnlyRows_perm (h : Apart lines cases) (hl : lines.Perm lines') (hc : cases.Perm cases') :
    caseOnlyRows lines cases = caseOnlyRows lines' cases' := by
  unfold caseOnlyRows
  simp only [← candidateLines_perm h hl hc]
  have hr : ∀ a b : BooksCase × List GeneralLedgerLine, caseLe a.1 b.1 ↔
      caseSortKey a.1 ≤ caseSortKey b.1 := fun _ _ => caseLe_iff _ _
  refine insertionSort_congr_of_apart hr ((openCases_perm hl hc).map _) fun a ha b hb hk => ?_
  obtain ⟨c, hm, rfl⟩ := List.mem_map.1 ha
  obtain ⟨c', hm', rfl⟩ := List.mem_map.1 hb
  obtain rfl := h.openCases c hm c' hm' hk
  rfl

/-- What is left open told apart, the result is one for every order of the lists. -/
theorem result_perm (h : Apart lines cases) (hl : lines.Perm lines') (hc : cases.Perm cases') :
    result lines cases = result lines' cases' := by
  unfold result
  rw [matchedRows_perm hl hc, booksOnlyRows_perm h hl hc, caseOnlyRows_perm h hl hc]

end

/-! ## A partition -/

/-- What is matched occurs once, so with what is not it is the whole list. -/
theorem perm_of_matched {α : Type*} [DecidableEq α] {matched all : List α} (hn : matched.Nodup)
    (hone : ∀ a ∈ matched, all.count a = 1) : (matched ++ all.filter fun a => a ∉ matched).Perm all := by
  rw [List.perm_iff_count]
  intro a
  rw [List.count_append]
  by_cases ha : a ∈ matched
  · rw [List.count_eq_one_of_mem hn ha, List.count_eq_zero_of_not_mem (by simp [ha]), hone a ha]
  · rw [List.count_eq_zero_of_not_mem ha, List.count_filter (by simpa using ha), Nat.zero_add]

section
variable {lines : List GeneralLedgerLine} {cases : List BooksCase}

theorem count_matchedLine {line : GeneralLedgerLine} (h : line ∈ (pairsOf lines cases).map Prod.fst) :
    lines.count line = 1 := by
  obtain ⟨⟨l, c⟩, hp, rfl⟩ := List.mem_map.1 h
  have hat := (mem_pairsOf.1 hp).2.1
  have hc := congrArg (List.count l) hat
  rwa [linesAt, List.count_filter (by simp), List.count_singleton_self] at hc

theorem count_matchedCase {one : BooksCase} (h : one ∈ (pairsOf lines cases).map Prod.snd) :
    cases.count one = 1 := by
  obtain ⟨⟨l, c⟩, hp, rfl⟩ := List.mem_map.1 h
  have hpaired := mem_pairsOf.1 hp
  have hc := congrArg (List.count c) hpaired.2.2
  rwa [casesAt, List.count_filter (by simpa using hpaired.case_eq.2), List.count_singleton_self] at hc

theorem filterMap_line? (lines : List GeneralLedgerLine) (cases : List BooksCase) :
    (result lines cases).filterMap ReconciliationRow.line? =
      (matchedRows lines cases).map Prod.fst ++ (booksOnlyRows lines cases).map Prod.fst := by
  simp only [result, List.filterMap_append, List.filterMap_map]
  have hnone : (caseOnlyRows lines cases).filterMap
      (ReconciliationRow.line? ∘ fun row => .caseOnly row.1 row.2) = [] := by
    simp [List.filterMap_eq_nil_iff, ReconciliationRow.line?]
  rw [hnone, List.append_nil, ← List.filterMap_eq_map, ← List.filterMap_eq_map]
  rfl

theorem filterMap_case? (lines : List GeneralLedgerLine) (cases : List BooksCase) :
    (result lines cases).filterMap ReconciliationRow.case? =
      (matchedRows lines cases).map (fun row => row.2.2) ++ (caseOnlyRows lines cases).map Prod.fst := by
  simp only [result, List.filterMap_append, List.filterMap_map]
  have hnone : (booksOnlyRows lines cases).filterMap
      (ReconciliationRow.case? ∘ fun row => .booksOnly row.1 row.2.1 row.2.2) = [] := by
    simp [List.filterMap_eq_nil_iff, ReconciliationRow.case?]
  rw [hnone, List.append_nil, ← List.filterMap_eq_map, ← List.filterMap_eq_map]
  rfl

/-- Each line is in exactly one row. -/
theorem result_lines (lines : List GeneralLedgerLine) (cases : List BooksCase) :
    ((result lines cases).filterMap ReconciliationRow.line?).Perm lines := by
  have hm : ((matchedRows lines cases).map Prod.fst).Perm ((pairsOf lines cases).map Prod.fst) := by
    have h := (List.perm_insertionSort (fun a b : GeneralLedgerLine × Cents × BooksCase => lineLe a.1 b.1)
      ((pairsOf lines cases).map fun pair => (pair.1, amountOf pair.1, pair.2))).map Prod.fst
    rwa [List.map_map] at h
  have hb : ((booksOnlyRows lines cases).map Prod.fst).Perm (openLines lines cases) := by
    have h := (List.perm_insertionSort (fun a b : GeneralLedgerLine × Cents × List BooksCase => lineLe a.1 b.1)
      ((openLines lines cases).map fun line =>
        (line, amountOf line, candidateCases (openCases lines cases) line))).map Prod.fst
    rw [List.map_map] at h
    exact h.trans (List.Perm.of_eq (List.map_id' _))
  rw [filterMap_line?]
  exact (hm.append hb).trans (perm_of_matched (nodup_matchedLines lines cases) fun _ => count_matchedLine)

/-- Each case is in exactly one row. -/
theorem result_cases (lines : List GeneralLedgerLine) (cases : List BooksCase) :
    ((result lines cases).filterMap ReconciliationRow.case?).Perm cases := by
  have hm : ((matchedRows lines cases).map fun row => row.2.2).Perm ((pairsOf lines cases).map Prod.snd) := by
    have h := (List.perm_insertionSort (fun a b : GeneralLedgerLine × Cents × BooksCase => lineLe a.1 b.1)
      ((pairsOf lines cases).map fun pair => (pair.1, amountOf pair.1, pair.2))).map fun row => row.2.2
    rwa [List.map_map] at h
  have hb : ((caseOnlyRows lines cases).map Prod.fst).Perm (openCases lines cases) := by
    have h := (List.perm_insertionSort (fun a b : BooksCase × List GeneralLedgerLine => caseLe a.1 b.1)
      ((openCases lines cases).map fun one => (one, candidateLines (openLines lines cases) one))).map Prod.fst
    rw [List.map_map] at h
    exact h.trans (List.Perm.of_eq (List.map_id' _))
  rw [filterMap_case?]
  exact (hm.append hb).trans (perm_of_matched (nodup_matchedCases lines cases) fun _ => count_matchedCase)

theorem mem_result_matched {line : GeneralLedgerLine} {amount : Cents} {one : BooksCase} :
    .matched line amount one ∈ result lines cases ↔ amount = amountOf line ∧ Paired lines cases line one := by
  have hm : (line, amount, one) ∈ matchedRows lines cases ↔ amount = amountOf line ∧
      Paired lines cases line one := by
    rw [matchedRows, List.mem_insertionSort, List.mem_map, ← mem_pairsOf]
    constructor
    · rintro ⟨pair, hp, h⟩
      cases h
      exact ⟨rfl, hp⟩
    · rintro ⟨rfl, hp⟩
      exact ⟨_, hp, rfl⟩
  rw [← hm]
  simp [result]

end

/-! ## The footer's total -/

theorem sum_nonneg_amounts (lines : List GeneralLedgerLine) : 0 ≤ (lines.map lineAmount).sum := by
  induction lines with
  | nil => simp
  | cons line lines ih =>
    rw [List.map_cons, List.sum_cons]
    have : 0 ≤ lineAmount line := by unfold lineAmount; omega
    omega

/-- Amounts are not negative, so a running total is in range while the whole is. -/
theorem foldlM_total : ∀ {lines : List GeneralLedgerLine} {total sum : Cents}, 0 ≤ total.val →
    (lines.foldlM (fun total line => do addCents total (← lineAmountCents line)) total = .ok sum ↔
      (∀ line ∈ lines, Safe line) ∧ sum.val = total.val + (lines.map lineAmount).sum)
  | [], total, sum, _ => by
    simp [Cents.ext_iff, eq_comm, pure, Except.pure]
  | line :: lines, total, sum, h0 => by
    rw [List.foldlM_cons, List.map_cons, List.sum_cons, List.forall_mem_cons]
    have hnonneg : 0 ≤ lineAmount line := by unfold lineAmount; omega
    have hrest := sum_nonneg_amounts lines
    constructor
    · intro h
      obtain ⟨next, hnext, h⟩ := bind_ok.1 h
      obtain ⟨amount, ha, hadd⟩ := bind_ok.1 hnext
      have hn := addCents_ok.1 hadd
      have hv := lineAmountCents_ok.1 ha
      obtain ⟨hs, hsum⟩ := (foldlM_total (by omega)).1 h
      exact ⟨⟨safe_of_ok ha, hs⟩, by omega⟩
    · rintro ⟨⟨hs, hall⟩, hsum⟩
      have hu := sum.upper
      have hl := total.lower
      have hv := amountOf_val hs
      obtain ⟨next, hnext⟩ := addCents_returns.2 (show InRange (total.val + (amountOf line).val) by
        unfold InRange
        omega)
      have hn := addCents_ok.1 hnext
      refine bind_ok.2 ⟨next, bind_ok.2 ⟨_, lineAmountCents_eq hs, hnext⟩, ?_⟩
      exact (foldlM_total (by omega)).2 ⟨hall, by omega⟩

theorem total_perm {lines lines' : List GeneralLedgerLine} (hl : lines.Perm lines') {sum : Cents} :
    totalLineAmountCents lines = .ok sum ↔ totalLineAmountCents lines' = .ok sum := by
  unfold totalLineAmountCents
  rw [foldlM_total (by decide), foldlM_total (by decide), (hl.map lineAmount).sum_eq]
  exact and_congr_left fun _ => forall_congr' fun line => by rw [hl.mem_iff]

/-! ## Order independence -/

/-- The rows account for every line and every case once, and match exactly the pairs that are each
other's only exact candidate. -/
structure Reconciled (lines : List GeneralLedgerLine) (cases : List BooksCase)
    (rows : List ReconciliationRow) : Prop where
  lineOnce : (rows.filterMap ReconciliationRow.line?).Perm lines
  caseOnce : (rows.filterMap ReconciliationRow.case?).Perm cases
  sole : ∀ line amount one, .matched line amount one ∈ rows ↔
    amount.val = lineAmount line ∧ Paired lines cases line one

/-- The call answers with one reconciliation for every order of the lists, and the lines have one total. -/
def Stable (lines : List GeneralLedgerLine) (cases : List BooksCase) : Prop :=
  ∃ rows, Reconciled lines cases rows ∧ ∀ lines' cases', lines.Perm lines' → cases.Perm cases' →
    reconcileDeductions lines' cases' = .ok rows ∧
      ∀ sum, totalLineAmountCents lines' = .ok sum ↔ totalLineAmountCents lines = .ok sum

theorem result_reconciled {lines : List GeneralLedgerLine} {cases : List BooksCase}
    (hs : ∀ line ∈ lines, Safe line) : Reconciled lines cases (result lines cases) where
  lineOnce := result_lines lines cases
  caseOnce := result_cases lines cases
  sole line amount one := by
    rw [mem_result_matched]
    refine and_congr_left fun hp => ?_
    rw [Cents.ext_iff, amountOf_val (hs line hp.mem)]

/-- The lines of one key shown without a case come out in the order they came in. -/
theorem booksOnly_filter (lines : List GeneralLedgerLine) (cases : List BooksCase) {p : GeneralLedgerLine → Bool}
    (hp : ∀ a b, p a = true → p b = true → lineSortKey a = lineSortKey b) :
    ((booksOnlyRows lines cases).map Prod.fst).filter p = (openLines lines cases).filter p := by
  have hr : ∀ a b : GeneralLedgerLine × Cents × List BooksCase, lineLe a.1 b.1 ↔
      lineSortKey a.1 ≤ lineSortKey b.1 := fun _ _ => lineLe_iff _ _
  have hp' : ∀ a b : GeneralLedgerLine × Cents × List BooksCase, (p ∘ Prod.fst) a = true →
      (p ∘ Prod.fst) b = true → lineSortKey a.1 = lineSortKey b.1 := fun a b => hp a.1 b.1
  rw [List.filter_map, booksOnlyRows, filter_insertionSort hr hp', ← List.filter_map, List.map_map]
  exact congrArg (List.filter p) (List.map_id' _)

/-- The cases of one key shown without a line come out in the order they came in. -/
theorem caseOnly_filter (lines : List GeneralLedgerLine) (cases : List BooksCase) {p : BooksCase → Bool}
    (hp : ∀ a b, p a = true → p b = true → caseSortKey a = caseSortKey b) :
    ((caseOnlyRows lines cases).map Prod.fst).filter p = (openCases lines cases).filter p := by
  have hr : ∀ a b : BooksCase × List GeneralLedgerLine, caseLe a.1 b.1 ↔
      caseSortKey a.1 ≤ caseSortKey b.1 := fun _ _ => caseLe_iff _ _
  have hp' : ∀ a b : BooksCase × List GeneralLedgerLine, (p ∘ Prod.fst) a = true →
      (p ∘ Prod.fst) b = true → caseSortKey a.1 = caseSortKey b.1 := fun a b => hp a.1 b.1
  rw [List.filter_map, caseOnlyRows, filter_insertionSort hr hp', ← List.filter_map, List.map_map]
  exact congrArg (List.filter p) (List.map_id' _)

/-- The lines a result shows without a case. -/
def shownLines (rows : List ReconciliationRow) : List GeneralLedgerLine :=
  rows.filterMap fun
    | .booksOnly line _ _ => some line
    | _ => none

/-- The cases a result shows without a line. -/
def shownCases (rows : List ReconciliationRow) : List BooksCase :=
  rows.filterMap fun
    | .caseOnly one _ => some one
    | _ => none

theorem shownLines_result (lines : List GeneralLedgerLine) (cases : List BooksCase) :
    shownLines (result lines cases) = (booksOnlyRows lines cases).map Prod.fst := by
  simp [shownLines, result, List.filterMap_append, List.filterMap_map, List.filterMap_eq_map']

theorem shownCases_result (lines : List GeneralLedgerLine) (cases : List BooksCase) :
    shownCases (result lines cases) = (caseOnlyRows lines cases).map Prod.fst := by
  simp [shownCases, result, List.filterMap_append, List.filterMap_map, List.filterMap_eq_map']

theorem reconcileDeductions_result {lines : List GeneralLedgerLine} {cases : List BooksCase}
    {rows : List ReconciliationRow} (h : reconcileDeductions lines cases = .ok rows) : rows = result lines cases := by
  obtain ⟨hs, hd⟩ := safe_of_reconcile h
  rw [reconcileDeductions_ok hs hd] at h
  exact (Except.ok.inj h).symm

/-- The lines and cases for which the answer is one: amounts are safe, the dates compared are days, and
the comparators tell what is left open apart. -/
structure Orderable (lines : List GeneralLedgerLine) (cases : List BooksCase) : Prop where
  safe : ∀ line ∈ lines, Safe line
  datable : Datable lines cases
  apart : Apart lines cases

/-- Of two open lines that order alike the one that came first is shown first. -/
theorem first_shown {lines : List GeneralLedgerLine} {cases : List BooksCase} {a : GeneralLedgerLine}
    (ha : OpenLine (a :: lines) cases a) {p : GeneralLedgerLine → Bool} (hpa : p a = true)
    (hp : ∀ a b, p a = true → p b = true → lineSortKey a = lineSortKey b) :
    ((shownLines (result (a :: lines) cases)).filter p).head? = some a := by
  rw [shownLines_result, booksOnly_filter _ _ hp, openLines,
    List.filter_cons_of_pos (by simpa using not_mem_matchedLines.2 ha), List.filter_cons_of_pos hpa]
  rfl

theorem first_case_shown {lines : List GeneralLedgerLine} {cases : List BooksCase} {a : BooksCase}
    (ha : OpenCase lines (a :: cases) a) {p : BooksCase → Bool} (hpa : p a = true)
    (hp : ∀ a b, p a = true → p b = true → caseSortKey a = caseSortKey b) :
    ((shownCases (result lines (a :: cases))).filter p).head? = some a := by
  rw [shownCases_result, caseOnly_filter _ _ hp, openCases,
    List.filter_cons_of_pos (by simpa using not_mem_matchedCases.2 ha), List.filter_cons_of_pos hpa]
  rfl

theorem Stable.linesApart {lines : List GeneralLedgerLine} {cases : List BooksCase} (h : Stable lines cases)
    {a b : GeneralLedgerLine} (ha : a ∈ lines) (hb : b ∈ lines) (hao : OpenLine lines cases a)
    (hbo : OpenLine lines cases b) (hab : byLine a b = 0) : a = b := by
  obtain ⟨rows, -, hrows⟩ := h
  have hpa := List.perm_cons_erase ha
  have hpb := List.perm_cons_erase hb
  have hra := reconcileDeductions_result (hrows _ cases hpa (List.Perm.refl _)).1
  have hrb := reconcileDeductions_result (hrows _ cases hpb (List.Perm.refl _)).1
  let p : GeneralLedgerLine → Bool := fun l => l = a ∨ l = b
  have hk := (byLine_compares a b).eq.1 hab
  have hp : ∀ x y, p x = true → p y = true → lineSortKey x = lineSortKey y := by
    intro x y hx hy
    rcases of_decide_eq_true hx with rfl | rfl <;> rcases of_decide_eq_true hy with rfl | rfl <;>
      simp [hk]
  have h1 := first_shown ((openLine_congr hpa (List.Perm.refl _)).1 hao) (p := p) (by simp [p]) hp
  have h2 := first_shown ((openLine_congr hpb (List.Perm.refl _)).1 hbo) (p := p) (by simp [p]) hp
  rw [← hra] at h1
  rw [← hrb, h1] at h2
  exact Option.some.inj h2

theorem Stable.casesApart {lines : List GeneralLedgerLine} {cases : List BooksCase} (h : Stable lines cases)
    {a b : BooksCase} (ha : a ∈ cases) (hb : b ∈ cases) (hao : OpenCase lines cases a)
    (hbo : OpenCase lines cases b) (hab : byCase a b = 0) : a = b := by
  obtain ⟨rows, -, hrows⟩ := h
  have hpa := List.perm_cons_erase ha
  have hpb := List.perm_cons_erase hb
  have hra := reconcileDeductions_result (hrows lines _ (List.Perm.refl _) hpa).1
  have hrb := reconcileDeductions_result (hrows lines _ (List.Perm.refl _) hpb).1
  let p : BooksCase → Bool := fun c => c = a ∨ c = b
  have hk := (byCase_compares a b).eq.1 hab
  have hp : ∀ x y, p x = true → p y = true → caseSortKey x = caseSortKey y := by
    intro x y hx hy
    rcases of_decide_eq_true hx with rfl | rfl <;> rcases of_decide_eq_true hy with rfl | rfl <;>
      simp [hk]
  have h1 := first_case_shown ((openCase_congr (List.Perm.refl _) hpa).1 hao) (p := p) (by simp [p]) hp
  have h2 := first_case_shown ((openCase_congr (List.Perm.refl _) hpb).1 hbo) (p := p) (by simp [p]) hp
  rw [← hra] at h1
  rw [← hrb, h1] at h2
  exact Option.some.inj h2

/-- **The reconciliation answers, accounts for every line and case once, matches only sole candidates and
does not depend on the order of its lists, exactly where the amounts are safe, the dates compared are
days and the comparators tell what is left open apart.** -/
theorem reconcile_stable_iff (lines : List GeneralLedgerLine) (cases : List BooksCase) :
    Stable lines cases ↔ Orderable lines cases := by
  constructor
  · intro h
    obtain ⟨rows, -, hrows⟩ := id h
    obtain ⟨hs, hd⟩ := safe_of_reconcile (hrows lines cases (List.Perm.refl _) (List.Perm.refl _)).1
    exact ⟨hs, hd, fun a ha b hb => Stable.linesApart h ha hb, fun a ha b hb => Stable.casesApart h ha hb⟩
  · rintro ⟨hs, hd, hapart⟩
    refine ⟨result lines cases, result_reconciled hs, fun lines' cases' hl hc => ⟨?_, fun sum => ?_⟩⟩
    · rw [result_perm hapart hl hc]
      exact reconcileDeductions_ok (safe_congr hl hs) (datable_congr hl hc hd)
    · exact (total_perm hl).symm

/-! ## Two lines of one transaction -/

def creditMemoLine (memo : String) : GeneralLedgerLine where
  accountExternalId := some "90".toList
  accountName := "Promotional allowances".toList
  date := "2026-09-01".toList
  transactionType := some "Credit Memo".toList
  transactionExternalId := some "145".toList
  documentNumber := some "CM-1".toList
  name := none
  memo := some memo.toList
  debitCents := ⟨50000, by decide, by decide⟩
  creditCents := ZERO
  balanceCents := none

/-- Two lines of one credit memo that differ in their memo alone come out in the order they came in. -/
theorem two_memos_reversed : ¬ Stable [creditMemoLine "east", creditMemoLine "west"] [] := by
  rintro ⟨rows, -, hrows⟩
  have h1 := (hrows _ _ (List.Perm.refl _) (List.Perm.refl _)).1
  have h2 := (hrows [creditMemoLine "west", creditMemoLine "east"] [] (List.Perm.swap _ _ _)
    (List.Perm.refl _)).1
  rw [← h2] at h1
  exact absurd h1 (by decide +kernel)

end Recouple.Books
