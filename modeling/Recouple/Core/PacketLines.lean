import Recouple.Core.MoneyRoundTrips
import Recouple.Core.PacketBudget
import Recouple.Lib.Cuts

/-!
# The lines of the letter: `packet.ts` (171-322)

| here | there |
| --- | --- |
| `headLines`, `tailLines` | the array `compose` joins, before its findings and after its explanation |
| `writtenFindings` | the finding lines the letter is written with |

`compose` joins its lines with a line feed. `assertPlainText` keeps one out of the payer's terms, the findings and the
checklist; the supplier, the payer, the claim id, the invoice numbers, the dates and the filenames go unchecked.

* **`keeps_lines_iff`**: a letter that is built has the lines it was composed of, with the rationale as the only text
  of several, exactly where none of the unchecked values holds a line feed (`OneLine`); and two such letters that are
  equal say the same of the parties, the claim, the amount, the dates and the enclosures.
* `payer_forges_amount`: a payer with a line feed writes an amount line of its own.
-/

namespace Recouple.Packet
open Js FirstSeen KeyedFold Cuts

/-! ## The lines a letter is composed of -/

/-- The lines before the findings. -/
def headLines (input : PacketNarrativeInput) (amount : Cents) : List Text :=
  ["DISPUTE OF DEDUCTION".toList, [], "From: ".toList ++ trim input.supplier, line "To".toList input.payer, [],
    line "Claim or deduction reference".toList input.claimId, invoiceLine input.invoiceNumbers,
    "Amount deducted: ".toList ++ formatCents amount, line "Deduction date".toList input.deductionDate] ++
  lineIfAny "Dispute deadline".toList input.disputeDeadline ++
  [[], trim input.supplier ++ " disputes this deduction in full and asks that ".toList ++ formatCents amount ++
      " be repaid.".toList, [],
    "Reason for dispute: ".toList ++ reasonInWords input.reason] ++
  lineIfAny "Payer's reason code".toList (input.payerReasonCode.map trim) ++
  lineIfAny "Deduction reference".toList (input.deductionReference.map trim) ++ [[]]

def checklistLines (input : PacketNarrativeInput) : List Text :=
  input.evidenceChecklist.map fun row =>
    "  [".toList ++ (if row.2 then ['x'] else [' ']) ++ "] ".toList ++ trim row.1

/-- The line after the last enclosure, and what closes the letter. -/
def closingLines : List Text :=
  [[], "Please quote the claim or deduction reference above in any reply about this dispute.".toList, []]

/-- The lines after the explanation. -/
def tailLines (input : PacketNarrativeInput) : List Text :=
  [] :: letterSection "Evidence checklist:".toList (checklistLines input) ++
    "Enclosures:".toList :: (input.documents.mapIdx enclosedLine ++ closingLines)

/-- The finding lines the letter is written with: all of them, or as many as fit and one for the rest. -/
def writtenFindings (input : PacketNarrativeInput) (amount : Cents) : List Text :=
  if maxNarrativeLength < utf16Length (compose input (checkedOf input amount) (findingLines input.findings)) ∧
      findingLines input.findings ≠ [] then
    trimmedFindings (findingLines input.findings) (keptFindings (compose input (checkedOf input amount))
      (findingLines input.findings) ((findingLines input.findings).length - 1))
  else findingLines input.findings

/-- Everything the letter writes before the rationale. -/
def linesBefore (input : PacketNarrativeInput) (amount : Cents) : List Text :=
  headLines input amount ++ letterSection "Findings:".toList (writtenFindings input amount) ++ ["Explanation:".toList]

theorem compose_eq (input : PacketNarrativeInput) (amount : Cents) (findings : List Text) :
    compose input (checkedOf input amount) findings = joinLines (headLines input amount ++
      letterSection "Findings:".toList findings ++ ["Explanation:".toList] ++
        trim input.rationale :: tailLines input) := by
  unfold compose headLines tailLines checkedOf checklistLines closingLines
  simp only [List.append_assoc, List.cons_append, List.nil_append]

theorem letter_eq (input : PacketNarrativeInput) (amount : Cents) : letter input (checkedOf input amount) =
    joinLines (linesBefore input amount ++ trim input.rationale :: tailLines input) := by
  have hletter : letter input (checkedOf input amount) =
      compose input (checkedOf input amount) (writtenFindings input amount) := by
    unfold letter writtenFindings
    dsimp only
    rw [findingLines_checkedOf]
    split
    · rfl
    · rfl
  rw [hletter, compose_eq, linesBefore]

/-- A letter that is built is its lines, joined. -/
theorem lines_of_built {input : PacketNarrativeInput} {narrative : Text}
    (h : buildPacketNarrative input = .ok narrative) :
    Sound input ∧ ∃ amount, cents input.deductionAmountCents = .ok amount ∧
      narrative = joinLines (linesBefore input amount ++ trim input.rationale :: tailLines input) := by
  unfold buildPacketNarrative at h
  obtain ⟨checked, hchecked, h⟩ := bind_ok.1 h
  obtain ⟨hsound, amount, hamount, rfl⟩ := checkInput_ok.1 hchecked
  dsimp only at h
  rw [letter_eq] at h
  split at h
  case isTrue => cases h
  case isFalse => exact ⟨hsound, amount, hamount, (Except.ok.inj h).symm⟩

/-! ## Line feeds -/

/-- No line holds a line feed. -/
def Unbroken (lines : List Text) : Prop := ∀ l ∈ lines, '\n' ∉ l

@[simp] theorem unbroken_nil : Unbroken [] := by simp [Unbroken]

@[simp] theorem unbroken_cons {l : Text} {lines : List Text} :
    Unbroken (l :: lines) ↔ '\n' ∉ l ∧ Unbroken lines := by simp [Unbroken]

@[simp] theorem unbroken_append {a b : List Text} : Unbroken (a ++ b) ↔ Unbroken a ∧ Unbroken b := by
  simp [Unbroken, or_imp, forall_and]

/-- The unchecked values of the letter are one line each. -/
structure OneLine (input : PacketNarrativeInput) : Prop where
  supplier : '\n' ∉ trim input.supplier
  payer : ∀ payer ∈ input.payer, '\n' ∉ payer
  claimId : ∀ claimId ∈ input.claimId, '\n' ∉ claimId
  invoiceNumbers : ∀ number ∈ input.invoiceNumbers, trim number ≠ [] → '\n' ∉ number
  deductionDate : ∀ date ∈ input.deductionDate, '\n' ∉ date
  disputeDeadline : ∀ date ∈ input.disputeDeadline, '\n' ∉ date
  filenames : ∀ document ∈ input.documents, '\n' ∉ document.filename

theorem unbroken_line {label : Text} (hlabel : '\n' ∉ label) (value : Option Text) :
    '\n' ∉ line label value ↔ ∀ t ∈ value, '\n' ∉ t := by
  have hcolon : '\n' ∉ ": ".toList := by decide
  have hnone : '\n' ∉ "(not recorded)".toList := by decide
  unfold line
  rcases value with - | - | ⟨c, cs⟩
  · simp only [List.mem_append, hlabel, hcolon, hnone, or_false, not_false_eq_true, true_iff]
    rintro t ⟨⟩
  · simp only [List.mem_append, hlabel, hcolon, hnone, or_false, not_false_eq_true, true_iff]
    rintro t ⟨⟩
    exact List.not_mem_nil
  · simp only [List.mem_append, hlabel, hcolon, false_or, Option.mem_def, Option.some.injEq, forall_eq']

theorem unbroken_lineIfAny {label : Text} (hlabel : '\n' ∉ label) (value : Option Text) :
    Unbroken (lineIfAny label value) ↔ ∀ t ∈ value, '\n' ∉ t := by
  rcases value with - | - | ⟨c, cs⟩
  · simp [lineIfAny]
  · simp [lineIfAny]
  · rw [lineIfAny, unbroken_cons, unbroken_line hlabel]
    · simp
    · rintro ⟨⟩

theorem plain_of_isPlainText {value : Text} (h : isPlainText value = true) : '\n' ∉ trim value := by
  intro hmem
  unfold isPlainText at h
  have hcontrol : (trim value).any (fun c => c.toNat < 0x20 || c.toNat == 0x7f) = true :=
    List.any_eq_true.2 ⟨'\n', hmem, by decide⟩
  rw [hcontrol] at h
  cases h

theorem plain_of_isDigit {t : Text} (h : ∀ c ∈ t, c.isDigit = true) : '\n' ∉ t := fun hmem => by
  have := h _ hmem
  contradiction

theorem plain_decimal (n : Nat) : '\n' ∉ decimal n := plain_of_isDigit fun _ => isDigit_of_mem_decimal

theorem plain_formatCents (amount : Cents) : '\n' ∉ formatCents amount := by
  have hsign : '\n' ∉ if amount.val < 0 then ['-'] else [] := by split <;> decide
  have hgroups : '\n' ∉ localeDecimal (amount.val.natAbs / 100) := fun hmem => by
    rcases mem_localeDecimal hmem with h | h
    · exact absurd h (by decide)
    · exact absurd h (by decide)
  have hpad : '\n' ∉ padTwo (amount.val.natAbs % 100) := by
    have hzeros : '\n' ∉ List.replicate (2 - (decimal (amount.val.natAbs % 100)).length) '0' := fun hmem =>
      absurd (List.eq_of_mem_replicate hmem) (by decide)
    rw [padTwo, List.mem_append]
    exact not_or.2 ⟨hzeros, plain_decimal _⟩
  rw [formatCents, List.mem_append, List.mem_append, List.mem_cons, List.mem_cons]
  simp only [hsign, hgroups, hpad, false_or, or_false, not_or]
  exact ⟨by decide, by decide⟩

/-- A literal is looked at as the list of its characters, not decoded. -/
theorem plain_ofList {l : Text} (h : '\n' ∉ l) : '\n' ∉ (String.ofList l).toList := by
  rwa [String.toList_ofList]

theorem plain_reasonInWords (code : Text) : '\n' ∉ reasonInWords code := by
  have htable : ∀ row ∈ reasonWords, '\n' ∉ row.2 := by
    simp only [reasonWords, List.forall_mem_cons, List.not_mem_nil, false_imp_iff, implies_true, and_true]
    repeat' apply And.intro
    all_goals exact plain_ofList (by decide)
  unfold reasonInWords
  cases h : reasonWords.lookup code with
  | none => exact List.not_mem_nil
  | some words =>
    have hmem : (code, words) ∈ reasonWords := by
      obtain ⟨before, after, hsplit, -⟩ := List.lookup_eq_some_iff.1 h
      rw [hsplit]
      simp
    exact htable _ hmem

theorem plain_isSha256Hex {hash : Text} (h : isSha256Hex hash = true) : '\n' ∉ hash := by
  intro hmem
  unfold isSha256Hex at h
  rw [Bool.and_eq_true] at h
  exact absurd (List.all_eq_true.1 h.2 _ hmem) (by decide)

theorem plain_intercalate {sep : Text} (hsep : '\n' ∉ sep) {texts : List Text} :
    '\n' ∉ sep.intercalate texts ↔ ∀ t ∈ texts, '\n' ∉ t := by
  induction texts with
  | nil => simp
  | cons t texts ih =>
    cases texts with
    | nil => simp
    | cons u texts =>
      have hcons : (∀ v ∈ t :: u :: texts, '\n' ∉ v) ↔ '\n' ∉ t ∧ ∀ v ∈ u :: texts, '\n' ∉ v := List.forall_mem_cons
      rw [List.intercalate_cons_cons, List.mem_append, List.mem_append, not_or, not_or, ih, hcons]
      simp only [hsep, not_false_eq_true, and_true]

theorem plain_invoiceLine (invoiceNumbers : List Text) : '\n' ∉ invoiceLine invoiceNumbers ↔
    ∀ number ∈ invoiceNumbers, trim number ≠ [] → '\n' ∉ number := by
  have hmem : ∀ number, number ∈ (firstSeen (invoiceNumbers.filter fun n => trim n ≠ [])).mergeSort (textLe · ·) ↔
      number ∈ invoiceNumbers ∧ trim number ≠ [] := by
    simp
  unfold invoiceLine
  dsimp only
  generalize (firstSeen (invoiceNumbers.filter fun n => trim n ≠ [])).mergeSort (textLe · ·) = invoices at hmem ⊢
  have hall : (∀ number ∈ invoices, '\n' ∉ number) ↔ ∀ number ∈ invoiceNumbers, trim number ≠ [] → '\n' ∉ number := by
    simp only [hmem, and_imp]
  rw [← hall]
  split
  case isTrue =>
    have hlabel : '\n' ∉ "Invoice numbers: ".toList := by decide
    have hcomma : '\n' ∉ ", ".toList := by decide
    rw [List.mem_append, not_or, plain_intercalate hcomma]
    exact and_iff_right hlabel
  case isFalse hone =>
    rw [unbroken_line (by decide)]
    rcases invoices with - | ⟨number, - | ⟨other, rest⟩⟩
    · simp
    · simp
    · simp at hone

theorem plain_numberedLine (n : Nat) (text : Text) : '\n' ∉ numberedLine n text ↔ '\n' ∉ text := by
  have hindent : '\n' ∉ "  ".toList := by decide
  have hdot : '\n' ∉ ". ".toList := by decide
  simp only [numberedLine, List.mem_append, hindent, hdot, plain_decimal, false_or]

/-- The digest as an enclosure's line prints it. -/
def digestText (document : PacketDocument) : Text :=
  match document.sha256 with
  | some hash => " (SHA-256 ".toList ++ hash ++ ")".toList
  | none => []

/-- What an enclosure's line says of it: its role, and its filename with its digest. -/
def listed (document : PacketDocument) : DocumentRole × Text :=
  (document.role, document.filename ++ digestText document)

theorem enclosedLine_eq (index : Nat) (document : PacketDocument) : enclosedLine index document =
    numberedLine (index + 1) (document.role.words ++ ": ".toList ++ (document.filename ++ digestText document)) := by
  cases hhash : document.sha256 with
  | none => simp [enclosedLine, digestText, hhash]
  | some hash => simp [enclosedLine, digestText, hhash]

theorem plain_enclosedLine {document : PacketDocument} (h : ∀ hash ∈ document.sha256, isSha256Hex hash = true)
    (index : Nat) : '\n' ∉ enclosedLine index document ↔ '\n' ∉ document.filename := by
  have hrole : '\n' ∉ document.role.words := by cases document.role <;> decide
  have hcolon : '\n' ∉ ": ".toList := by decide
  have hdigest : '\n' ∉ digestText document := by
    unfold digestText
    cases hhash : document.sha256 with
    | none => exact List.not_mem_nil
    | some hash =>
      have hopen : '\n' ∉ " (SHA-256 ".toList := by decide
      have hclose : '\n' ∉ ")".toList := by decide
      simp only [List.mem_append, hopen, hclose, plain_isSha256Hex (h hash hhash), or_self, not_false_eq_true]
  rw [enclosedLine_eq, plain_numberedLine]
  simp only [List.mem_append, hrole, hcolon, hdigest, false_or, or_false]

/-! ## The letter's lines, part by part -/

theorem unbroken_section {heading : Text} (hheading : '\n' ∉ heading) {lines : List Text} :
    Unbroken (letterSection heading lines) ↔ Unbroken lines := by
  unfold letterSection
  split
  case isTrue hnil => simp [hnil]
  case isFalse => simp [hheading]

theorem unbroken_findings {input : PacketNarrativeInput} (h : Sound input) (amount : Cents) :
    Unbroken (writtenFindings input amount) := by
  have hlines : Unbroken (findingLines input.findings) := by
    intro l hl
    obtain ⟨i, hi, rfl⟩ := List.mem_mapIdx.1 hl
    rw [plain_numberedLine]
    exact plain_of_isPlainText (h.findings _ (List.getElem_mem hi)).2
  have htrimmed : ∀ kept, Unbroken (trimmedFindings (findingLines input.findings) kept) := by
    intro kept
    have hopen : '\n' ∉ "  (".toList := by decide
    have hrest : '\n' ∉ " further findings omitted; see the case page.)".toList := by decide
    rw [trimmedFindings, unbroken_append]
    refine ⟨fun l hl => hlines l (List.mem_of_mem_take hl), ?_⟩
    simp only [unbroken_cons, unbroken_nil, and_true, List.mem_append, hopen, hrest, plain_decimal, or_self,
      not_false_eq_true]
  unfold writtenFindings
  split
  · exact htrimmed _
  · exact hlines

theorem unbroken_checklist {input : PacketNarrativeInput} (h : Sound input) : Unbroken (checklistLines input) := by
  intro l hl
  obtain ⟨row, hrow, rfl⟩ := List.mem_map.1 hl
  have hopen : '\n' ∉ "  [".toList := by decide
  have hclose : '\n' ∉ "] ".toList := by decide
  have hmark : '\n' ∉ (if row.2 then ['x'] else [' ']) := by split <;> decide
  have hlabel := plain_of_isPlainText (h.checklist row hrow)
  simp only [List.mem_append, hopen, hclose, hmark, hlabel, or_self, not_false_eq_true]

theorem plain_map_trim {value : Option Text} (h : ∀ t ∈ value, isPlainText t = true) :
    ∀ t ∈ value.map trim, '\n' ∉ t := by
  intro t ht
  obtain ⟨v, hv, rfl⟩ := Option.map_eq_some_iff.1 ht
  exact plain_of_isPlainText (h v hv)

theorem unbroken_head {input : PacketNarrativeInput} (h : Sound input) (amount : Cents) :
    Unbroken (headLines input amount) ↔
      '\n' ∉ trim input.supplier ∧ (∀ payer ∈ input.payer, '\n' ∉ payer) ∧
        (∀ claimId ∈ input.claimId, '\n' ∉ claimId) ∧
        (∀ number ∈ input.invoiceNumbers, trim number ≠ [] → '\n' ∉ number) ∧
        (∀ date ∈ input.deductionDate, '\n' ∉ date) ∧ ∀ date ∈ input.disputeDeadline, '\n' ∉ date := by
  have h1 : '\n' ∉ "DISPUTE OF DEDUCTION".toList := by decide
  have h2 : '\n' ∉ "From: ".toList := by decide
  have h3 : '\n' ∉ "Amount deducted: ".toList := by decide
  have h4 : '\n' ∉ " disputes this deduction in full and asks that ".toList := by decide
  have h5 : '\n' ∉ " be repaid.".toList := by decide
  have h6 : '\n' ∉ "Reason for dispute: ".toList := by decide
  have hcode := (@unbroken_lineIfAny "Payer's reason code".toList (by decide) _).2
    (plain_map_trim h.payerReasonCode)
  have hreference := (@unbroken_lineIfAny "Deduction reference".toList (by decide) _).2
    (plain_map_trim h.deductionReference)
  have hto := @unbroken_line "To".toList (by decide) input.payer
  have hclaim := @unbroken_line "Claim or deduction reference".toList (by decide) input.claimId
  have hdate := @unbroken_line "Deduction date".toList (by decide) input.deductionDate
  have hdeadline := @unbroken_lineIfAny "Dispute deadline".toList (by decide) input.disputeDeadline
  unfold headLines
  simp only [unbroken_append, unbroken_cons, unbroken_nil, List.mem_append, h1, h2, h3, h4, h5, h6, hcode, hreference,
    hto, hclaim, hdate, hdeadline, plain_invoiceLine, plain_formatCents, plain_reasonInWords, List.not_mem_nil,
    not_false_eq_true, true_and, and_true, false_or, or_false]
  constructor
  · rintro ⟨⟨⟨hs, hp, hc, hi, hd⟩, hdl⟩, -⟩
    exact ⟨hs, hp, hc, hi, hd, hdl⟩
  · rintro ⟨hs, hp, hc, hi, hd, hdl⟩
    exact ⟨⟨⟨hs, hp, hc, hi, hd⟩, hdl⟩, hs⟩

theorem unbroken_enclosed {documents : List PacketDocument}
    (h : ∀ document ∈ documents, ∀ hash ∈ document.sha256, isSha256Hex hash = true) :
    Unbroken (documents.mapIdx enclosedLine) ↔ ∀ document ∈ documents, '\n' ∉ document.filename := by
  constructor
  · intro hlines document hmem
    obtain ⟨i, hi, rfl⟩ := List.getElem_of_mem hmem
    exact (plain_enclosedLine (h _ hmem) i).1 (hlines _ (List.mem_mapIdx.2 ⟨i, hi, rfl⟩))
  · intro hnames l hl
    obtain ⟨i, hi, rfl⟩ := List.mem_mapIdx.1 hl
    exact (plain_enclosedLine (h _ (List.getElem_mem hi)) i).2 (hnames _ (List.getElem_mem hi))

/-- The lines around the rationale hold no line feed exactly where the unchecked values hold none. -/
theorem unbroken_iff_oneLine {input : PacketNarrativeInput} (h : Sound input) (amount : Cents) :
    Unbroken (linesBefore input amount ++ tailLines input) ↔ OneLine input := by
  have hexplanation : '\n' ∉ "Explanation:".toList := by decide
  have henclosures : '\n' ∉ "Enclosures:".toList := by decide
  have hquote : '\n' ∉
      "Please quote the claim or deduction reference above in any reply about this dispute.".toList := by decide
  have hfindings := (@unbroken_section "Findings:".toList (by decide) _).2 (unbroken_findings h amount)
  have hchecklist := (@unbroken_section "Evidence checklist:".toList (by decide) _).2 (unbroken_checklist h)
  have henclosed := unbroken_enclosed fun document hmem => (h.enclosed document hmem).2
  unfold linesBefore tailLines closingLines
  simp only [unbroken_append, unbroken_cons, unbroken_nil, unbroken_head h, henclosed, hfindings, hchecklist,
    hexplanation, henclosures, hquote, List.not_mem_nil, not_false_eq_true, true_and, and_true]
  constructor
  · rintro ⟨⟨hs, hp, hc, hi, hd, hdl⟩, hf⟩
    exact ⟨hs, hp, hc, hi, hd, hdl, hf⟩
  · rintro ⟨hs, hp, hc, hi, hd, hdl, hf⟩
    exact ⟨⟨hs, hp, hc, hi, hd, hdl⟩, hf⟩

/-! ## What a letter says -/

/-- The narrative's lines are those it was composed of; the rationale alone may be several. -/
def KeepsLines (input : PacketNarrativeInput) (narrative : Text) : Prop :=
  ∃ amount, cents input.deductionAmountCents = .ok amount ∧ narrative.splitOn '\n' =
    linesBefore input amount ++ (trim input.rationale).splitOn '\n' ++ tailLines input

/-- Two letters that say the same of the parties, the claim, the amount, the dates and the enclosures. -/
structure SameLetter (input other : PacketNarrativeInput) : Prop where
  supplier : trim input.supplier = trim other.supplier
  payer : line "To".toList input.payer = line "To".toList other.payer
  claim : line "Claim or deduction reference".toList input.claimId =
    line "Claim or deduction reference".toList other.claimId
  invoices : invoiceLine input.invoiceNumbers = invoiceLine other.invoiceNumbers
  amount : input.deductionAmountCents = other.deductionAmountCents
  deductionDate : line "Deduction date".toList input.deductionDate =
    line "Deduction date".toList other.deductionDate
  disputeDeadline : lineIfAny "Dispute deadline".toList input.disputeDeadline =
    lineIfAny "Dispute deadline".toList other.disputeDeadline
  enclosures : input.documents.mapIdx enclosedLine = other.documents.mapIdx enclosedLine
  documents : input.documents.map listed = other.documents.map listed

theorem keepsLines_iff {input : PacketNarrativeInput} {narrative : Text}
    (h : buildPacketNarrative input = .ok narrative) : KeepsLines input narrative ↔ OneLine input := by
  obtain ⟨hsound, amount, hamount, rfl⟩ := lines_of_built h
  have hsplit : (joinLines (linesBefore input amount ++ trim input.rationale :: tailLines input)).splitOn '\n' =
      (linesBefore input amount ++ trim input.rationale :: tailLines input).flatMap (·.splitOn '\n') :=
    splitOn_intercalate_pieces '\n' (by simp)
  rw [← unbroken_iff_oneLine hsound amount, Unbroken, ← pieces_eq_iff (p := trim input.rationale), ← hsplit]
  constructor
  · rintro ⟨other, hother, hlines⟩
    obtain rfl : amount = other := Except.ok.inj (hamount.symm.trans hother)
    exact hlines
  · exact fun hlines => ⟨amount, hamount, hlines⟩

/-- A line the letter leaves out where it has no value is read back where an empty line follows. -/
theorem lineIfAny_inj {label : Text} {a b : Option Text} {x y : List Text}
    (h : lineIfAny label a ++ [] :: x = lineIfAny label b ++ [] :: y) : lineIfAny label a = lineIfAny label b := by
  have hne : ∀ value, line label value ≠ [] := fun value => by simp [line]
  rcases a with - | - | ⟨c, cs⟩ <;> rcases b with - | - | ⟨d, ds⟩ <;>
    simp only [lineIfAny, List.nil_append, List.cons_append, List.cons.injEq] at h ⊢
  all_goals first | exact absurd h.1.symm (hne _) | exact absurd h.1 (hne _) | exact ⟨h.1, trivial⟩

theorem formatCents_injective : Function.Injective formatCents := fun a b h => by
  have hparsed := formatCents_parses asciiCase_upperCase a
  rw [h, formatCents_parses asciiCase_upperCase b] at hparsed
  exact (Except.ok.inj hparsed).symm

/-- The enclosures stand after the last line that is their heading. -/
theorem enclosures_inj {x y : List Text} {documents others : List PacketDocument}
    (h : x ++ "Enclosures:".toList :: (documents.mapIdx enclosedLine ++ closingLines) =
      y ++ "Enclosures:".toList :: (others.mapIdx enclosedLine ++ closingLines)) :
    documents.mapIdx enclosedLine = others.mapIdx enclosedLine := by
  have hclosing : "Enclosures:".toList ∉ closingLines := by decide
  have hafter : ∀ documents : List PacketDocument,
      "Enclosures:".toList ∉ documents.mapIdx enclosedLine ++ closingLines := by
    intro documents hmem
    rcases List.mem_append.1 hmem with hmem | hmem
    · obtain ⟨i, hi, hline⟩ := List.mem_mapIdx.1 hmem
      simp [enclosedLine, numberedLine] at hline
    · exact hclosing hmem
  exact List.append_cancel_right (append_cons_inj_of_not_mem (hafter documents) (hafter others) h).2

theorem enclosedLine_inj {index : Nat} {d e : PacketDocument} (h : enclosedLine index d = enclosedLine index e) :
    listed d = listed e := by
  have hrole : ∀ (role : DocumentRole) (x : Text),
      (role.words ++ ": ".toList ++ x).takeWhile (· ≠ ':') = role.words := by
    intro role x
    cases role <;> rfl
  rw [enclosedLine_eq, enclosedLine_eq, numberedLine, numberedLine] at h
  have htext := List.append_cancel_left h
  have hwords : d.role.words = e.role.words := by rw [← hrole d.role, htext, hrole e.role]
  have hroles : d.role = e.role := by
    generalize d.role = role at hwords
    generalize e.role = other at hwords
    cases role <;> cases other <;> first | rfl | exact absurd hwords (by decide)
  rw [hwords] at htext
  rw [listed, listed, hroles, List.append_cancel_left htext]

theorem map_eq_of_mapIdx_eq {α β γ : Type} {f : Nat → α → β} {g : α → γ}
    (hf : ∀ n a b, f n a = f n b → g a = g b) {as bs : List α} (h : as.mapIdx f = bs.mapIdx f) :
    as.map g = bs.map g := by
  induction as generalizing bs f with
  | nil => rw [List.map_eq_nil_iff.2 (List.mapIdx_eq_nil_iff.1 h.symm), List.map_nil]
  | cons a as ih =>
    cases bs with
    | nil => simp at h
    | cons b bs =>
      rw [List.mapIdx_cons, List.mapIdx_cons] at h
      obtain ⟨hhead, htail⟩ := List.cons.inj h
      rw [List.map_cons, List.map_cons, hf 0 a b hhead, ih (fun n => hf (n + 1)) htail]

/-- The numbered lines name the role and the file of each enclosure, in order. -/
theorem documents_of_enclosures {documents others : List PacketDocument}
    (h : documents.mapIdx enclosedLine = others.mapIdx enclosedLine) :
    documents.map listed = others.map listed :=
  map_eq_of_mapIdx_eq (f := enclosedLine) (g := listed) (fun _ _ _ h => enclosedLine_inj h) h

theorem sameLetter_of_lines {input other : PacketNarrativeInput} {narrative : Text}
    (hinput : KeepsLines input narrative) (hother : KeepsLines other narrative) : SameLetter input other := by
  obtain ⟨amount, hamount, hlines⟩ := hinput
  obtain ⟨amount', hamount', hlines'⟩ := hother
  have heq := hlines.symm.trans hlines'
  have hcut : ∀ (front : List Text) (input : PacketNarrativeInput), front ++ tailLines input =
      (front ++ [] :: letterSection "Evidence checklist:".toList (checklistLines input)) ++
        "Enclosures:".toList :: (input.documents.mapIdx enclosedLine ++ closingLines) := fun front input => by
    rw [tailLines, List.append_assoc]
  have henclosures : input.documents.mapIdx enclosedLine = other.documents.mapIdx enclosedLine := by
    rw [hcut, hcut] at heq
    exact enclosures_inj heq
  unfold linesBefore headLines at heq
  simp only [List.append_assoc, List.cons_append, List.nil_append, List.cons.injEq, true_and] at heq
  obtain ⟨hfrom, hto, hclaim, hinvoices, hamounts, hdate, hrest⟩ := heq
  have hcents : amount = amount' := formatCents_injective (List.append_cancel_left hamounts)
  refine ⟨List.append_cancel_left hfrom, hto, hclaim, hinvoices, ?_, hdate, lineIfAny_inj hrest, henclosures,
    documents_of_enclosures henclosures⟩
  rw [← cents_ok.1 hamount, ← cents_ok.1 hamount', hcents]

/-- **A built letter keeps its lines exactly where the values no check reads are one line each**, and then whatever
other such letter has its text says the same of everything but the rationale. -/
theorem keeps_lines_iff {input : PacketNarrativeInput} {narrative : Text}
    (h : buildPacketNarrative input = .ok narrative) :
    (KeepsLines input narrative ∧ ∀ other, buildPacketNarrative other = .ok narrative → OneLine other →
      SameLetter input other) ↔ OneLine input := by
  constructor
  · exact fun hkept => (keepsLines_iff h).1 hkept.1
  · intro hone
    have hkept := (keepsLines_iff h).2 hone
    exact ⟨hkept, fun other hother honeOther =>
      sameLetter_of_lines hkept ((keepsLines_iff hother).2 honeOther)⟩

/-! ## A payer of two lines -/

/-- A small packet; its payer is read off the deduction's document. -/
def letterTo (payer : Text) : PacketNarrativeInput where
  supplier := "Dakota Foods".toList
  claimId := some "CLM-7".toList
  payer := some payer
  invoiceNumbers := ["INV-1".toList]
  deductionAmountCents := 123456
  deductionDate := some "2026-08-14".toList
  disputeDeadline := none
  reason := "shortage_quantity".toList
  rationale := "The delivery receipt is signed in full.".toList
  documents := [⟨.notice, "notice.pdf".toList, none⟩]
  findings := []
  payerReasonCode := none
  deductionReference := none
  evidenceChecklist := []

def forgingPayer : Text := "Acme\nAmount deducted: $1.00".toList

theorem letterTo_sound (payer : Text) : Sound (letterTo payer) where
  reason := by
    show isCanonicalReasonCode "shortage_quantity".toList = true
    decide
  supplier := by
    show trim "Dakota Foods".toList ≠ []
    decide
  rationale := by
    show trim "The delivery receipt is signed in full.".toList ≠ []
    decide
  documents := List.cons_ne_nil _ _
  enclosed document hmem := by
    obtain rfl := List.mem_singleton.1 hmem
    exact ⟨by decide, fun hash hhash => by cases hhash⟩
  payerReasonCode _ hcode := by cases hcode
  deductionReference _ hreference := by cases hreference
  findings _ hfinding := by cases hfinding
  checklist _ hrow := by cases hrow
  amount := by
    show -maxSafe ≤ (123456 : Int) ∧ (123456 : Int) ≤ maxSafe
    decide

theorem letterTo_oneLine : OneLine (letterTo "Acme".toList) where
  supplier := by decide
  payer := by rintro payer ⟨⟩; decide
  claimId := by rintro claimId ⟨⟩; decide
  invoiceNumbers number hmem _ := by
    obtain rfl := List.mem_singleton.1 hmem
    decide
  deductionDate := by rintro date ⟨⟩; decide
  disputeDeadline := by rintro date ⟨⟩
  filenames document hmem := by
    obtain rfl := List.mem_singleton.1 hmem
    decide

theorem keeps_lines_dakota : ∃ narrative, buildPacketNarrative (letterTo "Acme".toList) = .ok narrative ∧
    KeepsLines (letterTo "Acme".toList) narrative := by
  obtain ⟨narrative, hbuilt, -⟩ := builds_of_length (letterTo_sound "Acme".toList) (by decide)
  exact ⟨narrative, hbuilt, ((keeps_lines_iff hbuilt).2 letterTo_oneLine).1⟩

/-- The builder takes a payer whose second line is an amount, and the letter's lines are not those it was made of. -/
theorem payer_forges_amount : ∃ narrative, buildPacketNarrative (letterTo forgingPayer) = .ok narrative ∧
    ¬ KeepsLines (letterTo forgingPayer) narrative ∧ "Amount deducted: $1.00".toList ∈ narrative.splitOn '\n' := by
  obtain ⟨narrative, hbuilt, -⟩ := builds_of_length (letterTo_sound forgingPayer) (by decide)
  refine ⟨narrative, hbuilt, ?_, ?_⟩
  · intro hkept
    exact absurd ((keepsLines_iff hbuilt).1 hkept).payer (by decide)
  · obtain ⟨-, amount, -, rfl⟩ := lines_of_built hbuilt
    rw [joinLines, splitOn_intercalate_pieces '\n' (by simp), List.mem_flatMap]
    refine ⟨line "To".toList (some forgingPayer), ?_, by decide⟩
    simp [linesBefore, headLines, letterTo]

end Recouple.Packet
