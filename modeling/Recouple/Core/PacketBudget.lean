import Recouple.Core.Packet
import Recouple.Lib.NumberText

/-!
# What a letter takes of the packet record: `packet.ts` (53-98)

`MAX_RATIONALE_LENGTH` is what the budget leaves of the narrative's limit, so that a decision that is recorded can be
made into a packet. `letterLength` counts what `compose` writes.

* **`builds_iff_length`**: a letter is built exactly where its values pass its checks and their lengths, with what the
  letter writes around them, fit the limit.
* `budget_covers_bare_letter`: a letter without digests, payer's terms, findings and checklist always fits, with every
  value at its cap and the longest rationale a store accepts.
* `digests_overrun`: the digests of the enclosures are in no row of the budget, and the store always prints them; with
  them a letter within every cap is refused.
-/

namespace Recouple.Packet
open Js FirstSeen KeyedFold

/-! ## Lengths -/

@[simp] theorem utf16Length_nil : utf16Length [] = 0 := rfl

@[simp] theorem utf16Length_append (a b : Text) : utf16Length (a ++ b) = utf16Length a + utf16Length b := by
  simp [utf16Length, codeUnits]

theorem utf16Length_cons (c : Char) (t : Text) : utf16Length (c :: t) = (units c).length + utf16Length t := by
  simp [utf16Length, codeUnits]

theorem utf16Length_ascii {t : Text} (h : ∀ c ∈ t, c.toNat < 0x10000) : utf16Length t = t.length := by
  induction t with
  | nil => rfl
  | cons c cs ih =>
    have hc : (units c).length = 1 := by rw [units, if_pos (h c (by simp))]; rfl
    rw [utf16Length_cons, hc, ih fun d hd => h d (by simp [hd]), List.length_cons, Nat.add_comm]

theorem utf16Length_decimal (n : Nat) : utf16Length (decimal n) = (decimal n).length := by
  apply utf16Length_ascii
  intro c hc
  have hdigit := isDigit_of_mem_decimal hc
  have h : c.toNat ≤ 57 := by
    have : 48 ≤ c.toNat ∧ c.toNat ≤ 57 := by simpa [Char.isDigit, UInt32.le_iff_toNat_le] using hdigit
    exact this.2
  omega

/-- The lines, each with its newline. -/
def linesLength (lines : List Text) : Nat := (lines.map fun l => utf16Length l + 1).sum

@[simp] theorem linesLength_nil : linesLength [] = 0 := rfl

@[simp] theorem linesLength_cons (l : Text) (lines : List Text) :
    linesLength (l :: lines) = utf16Length l + 1 + linesLength lines := by
  simp [linesLength]

@[simp] theorem linesLength_append (a b : List Text) : linesLength (a ++ b) = linesLength a + linesLength b := by
  simp [linesLength]

theorem utf16Length_joinLines {lines : List Text} (h : lines ≠ []) :
    utf16Length (joinLines lines) + 1 = linesLength lines := by
  induction lines with
  | nil => exact absurd rfl h
  | cons l lines ih =>
    cases lines with
    | nil => simp [joinLines]
    | cons m lines =>
      have hnewline : utf16Length ['\n'] = 1 := rfl
      have hrest := ih (List.cons_ne_nil _ _)
      rw [joinLines] at hrest
      rw [joinLines, List.intercalate_cons_cons, linesLength_cons, utf16Length_append, utf16Length_append, hnewline]
      omega

/-! ## What the letter writes, part by part -/

/-- A value, or the words for none. -/
def shownLength : Option Text → Nat
  | none | some [] => 14
  | some value => utf16Length value

/-- A line that is left out where it has no value, with its newline; `label` is what stands before the value. -/
def lineIfAnyLength (label : Nat) : Option Text → Nat
  | none | some [] => 0
  | some value => label + utf16Length value + 1

/-- The invoice line. -/
def invoicesLength (invoiceNumbers : List Text) : Nat :=
  let invoices := firstSeen (invoiceNumbers.filter fun n => trim n ≠ [])
  if 1 < invoices.length then 15 + (invoices.map fun n => utf16Length n + 2).sum
  else 16 + shownLength invoices.head?

def amountLength (cents : Except MoneyError Cents) : Nat :=
  match cents with
  | .ok amount => utf16Length (formatCents amount)
  | .error _ => 0

def numberedLength (n : Nat) (text : Text) : Nat := (decimal n).length + utf16Length text + 5

/-- An enclosure's line. A digest adds 75 units. -/
def enclosureLength (index : Nat) (document : PacketDocument) : Nat :=
  numberedLength (index + 1) (document.role.words ++ ": ".toList ++ document.filename) +
    match document.sha256 with
    | some hash => 11 + utf16Length hash
    | none => 0

def checklistLength (rows : List (Text × Bool)) : Nat :=
  if rows = [] then 0 else 21 + (rows.map fun row => 7 + utf16Length (trim row.1)).sum

/-- The findings with all their lines, or with the line that stands for all of them, whichever is shorter. -/
def findingsLength (findings : List Finding) : Nat :=
  if findings = [] then 0
  else 11 + min (findings.mapIdx fun index finding => numberedLength (index + 1) (trim finding.message)).sum
    ((decimal findings.length).length + 50)

/-- The letter without its findings. -/
def restLength (input : PacketNarrativeInput) : Nat :=
  298 + 2 * utf16Length (trim input.supplier) + shownLength input.payer + shownLength input.claimId +
    invoicesLength input.invoiceNumbers + 2 * amountLength (cents input.deductionAmountCents) +
    shownLength input.deductionDate + lineIfAnyLength 18 input.disputeDeadline +
    utf16Length (reasonInWords input.reason) + lineIfAnyLength 21 (input.payerReasonCode.map trim) +
    lineIfAnyLength 21 (input.deductionReference.map trim) + utf16Length (trim input.rationale) +
    checklistLength input.evidenceChecklist + (input.documents.mapIdx enclosureLength).sum

/-- The shortest letter the builder can write of its input. -/
def letterLength (input : PacketNarrativeInput) : Nat := restLength input + findingsLength input.findings

/-! ## Each part -/

theorem utf16Length_line (label : Text) (value : Option Text) :
    utf16Length (line label value) = utf16Length label + 2 + shownLength value := by
  have hcolon : utf16Length ": ".toList = 2 := rfl
  unfold line shownLength
  rcases value with - | - | ⟨c, cs⟩
  · rw [utf16Length_append, utf16Length_append, hcolon]
    rfl
  · rw [utf16Length_append, utf16Length_append, hcolon]
    rfl
  · rw [utf16Length_append, utf16Length_append, hcolon]

theorem linesLength_lineIfAny (label : Text) (value : Option Text) :
    linesLength (lineIfAny label value) = lineIfAnyLength (utf16Length label + 2) value := by
  rcases value with - | - | ⟨c, cs⟩
  · rfl
  · rfl
  · show linesLength [line label (some (c :: cs))] = _
    rw [linesLength_cons, utf16Length_line]
    rfl

theorem utf16Length_numberedLine (n : Nat) (text : Text) :
    utf16Length (numberedLine n text) + 1 = numberedLength n text := by
  have hindent : utf16Length "  ".toList = 2 := rfl
  have hdot : utf16Length ". ".toList = 2 := rfl
  rw [numberedLine, utf16Length_append, utf16Length_append, utf16Length_append, hindent, hdot, utf16Length_decimal,
    numberedLength]
  omega

theorem linesLength_section (heading : Text) (lines : List Text) : linesLength (letterSection heading lines) =
    if lines = [] then 0 else utf16Length heading + 2 + linesLength lines := by
  unfold letterSection
  split
  · rfl
  · rw [List.cons_append, linesLength_cons, linesLength_append, linesLength_cons, linesLength_nil, utf16Length_nil]
    omega

theorem utf16Length_intercalate (sep : Text) {texts : List Text} (h : texts ≠ []) :
    utf16Length (sep.intercalate texts) + utf16Length sep = (texts.map fun t => utf16Length t + utf16Length sep).sum := by
  induction texts with
  | nil => exact absurd rfl h
  | cons t texts ih =>
    cases texts with
    | nil => simp
    | cons u texts =>
      have hrest := ih (List.cons_ne_nil _ _)
      rw [List.intercalate_cons_cons, List.map_cons, List.sum_cons, ← hrest, utf16Length_append, utf16Length_append]
      omega

theorem utf16Length_invoiceLine (invoiceNumbers : List Text) :
    utf16Length (invoiceLine invoiceNumbers) = invoicesLength invoiceNumbers := by
  unfold invoiceLine invoicesLength
  dsimp only
  generalize firstSeen (invoiceNumbers.filter fun n => trim n ≠ []) = invoices
  have hperm : (invoices.mergeSort (textLe · ·)).Perm invoices := List.mergeSort_perm ..
  rw [hperm.length_eq]
  split
  case isTrue hmany =>
    have hne : invoices.mergeSort (textLe · ·) ≠ [] := fun hnil => by
      rw [hnil] at hperm
      rw [← hperm.length_eq] at hmany
      simp at hmany
    have hlabel : utf16Length "Invoice numbers: ".toList = 17 := rfl
    have hcomma : utf16Length ", ".toList = 2 := rfl
    have hsum := utf16Length_intercalate ", ".toList hne
    rw [hcomma, (hperm.map _).sum_eq] at hsum
    rw [utf16Length_append, hlabel]
    omega
  case isFalse hone =>
    have hlabel : utf16Length "Invoice number".toList = 14 := rfl
    have hsort : invoices.mergeSort (textLe · ·) = invoices := by
      rcases invoices with - | ⟨t, - | ⟨u, rest⟩⟩
      · simp
      · simp
      · simp at hone
    rw [hsort, utf16Length_line, hlabel]

theorem linesLength_mapIdx {α : Type} (f : Nat → α → Text) (g : Nat → α → Nat)
    (h : ∀ n a, utf16Length (f n a) + 1 = g n a) (as : List α) :
    linesLength (as.mapIdx f) = (as.mapIdx g).sum := by
  induction as generalizing f g with
  | nil => rfl
  | cons a as ih =>
    rw [List.mapIdx_cons, List.mapIdx_cons, linesLength_cons, List.sum_cons, h 0 a]
    rw [ih (fun n => f (n + 1)) (fun n => g (n + 1)) fun n b => h (n + 1) b]

theorem utf16Length_enclosedLine (index : Nat) (document : PacketDocument) :
    utf16Length (enclosedLine index document) + 1 = enclosureLength index document := by
  unfold enclosedLine enclosureLength
  rw [utf16Length_numberedLine, numberedLength, numberedLength, utf16Length_append]
  cases document.sha256 with
  | none => simp
  | some hash =>
    have hopen : utf16Length " (SHA-256 ".toList = 10 := rfl
    have hclose : utf16Length ")".toList = 1 := rfl
    simp only [utf16Length_append, hopen, hclose]
    omega

/-- What is left of an input's values once they are checked. -/
def checkedOf (input : PacketNarrativeInput) (amount : Cents) : Checked where
  supplier := trim input.supplier
  rationale := trim input.rationale
  payerReasonCode := input.payerReasonCode.map trim
  deductionReference := input.deductionReference.map trim
  findings := input.findings.map fun finding => trim finding.message
  checklist := input.evidenceChecklist.map fun row =>
    "  [".toList ++ (if row.2 then ['x'] else [' ']) ++ "] ".toList ++ trim row.1
  amount := formatCents amount

theorem linesLength_checklist (rows : List (Text × Bool)) :
    linesLength (letterSection "Evidence checklist:".toList (rows.map fun row =>
      "  [".toList ++ (if row.2 then ['x'] else [' ']) ++ "] ".toList ++ trim row.1)) = checklistLength rows := by
  have hheading : utf16Length "Evidence checklist:".toList = 19 := rfl
  have hrow : ∀ row : Text × Bool, utf16Length ("  [".toList ++ (if row.2 then ['x'] else [' ']) ++ "] ".toList ++
      trim row.1) + 1 = 7 + utf16Length (trim row.1) := fun row => by
    have hopen : utf16Length "  [".toList = 3 := rfl
    have hmark : utf16Length (if row.2 then ['x'] else [' ']) = 1 := by split <;> rfl
    have hclose : utf16Length "] ".toList = 2 := rfl
    rw [utf16Length_append, utf16Length_append, utf16Length_append, hopen, hmark, hclose]
    omega
  rw [linesLength_section, checklistLength, linesLength, List.map_map, hheading]
  simp only [List.map_eq_nil_iff, Function.comp_def, hrow]

/-- The letter's length, with whatever stands under its findings. -/
theorem utf16Length_compose {input : PacketNarrativeInput} {amount : Cents}
    (hamount : cents input.deductionAmountCents = .ok amount) (findingLines : List Text) :
    utf16Length (compose input (checkedOf input amount) findingLines) =
      restLength input + linesLength (letterSection "Findings:".toList findingLines) := by
  have h1 : utf16Length "DISPUTE OF DEDUCTION".toList = 20 := rfl
  have h2 : utf16Length "From: ".toList = 6 := rfl
  have h3 : utf16Length "To".toList = 2 := rfl
  have h4 : utf16Length "Claim or deduction reference".toList = 28 := rfl
  have h5 : utf16Length "Amount deducted: ".toList = 17 := rfl
  have h6 : utf16Length "Deduction date".toList = 14 := rfl
  have h7 : utf16Length "Dispute deadline".toList = 16 := rfl
  have h8 : utf16Length " disputes this deduction in full and asks that ".toList = 47 := rfl
  have h9 : utf16Length " be repaid.".toList = 11 := rfl
  have h10 : utf16Length "Reason for dispute: ".toList = 20 := rfl
  have h11 : utf16Length "Payer's reason code".toList = 19 := rfl
  have h12 : utf16Length "Deduction reference".toList = 19 := rfl
  have h13 : utf16Length "Explanation:".toList = 12 := rfl
  have h14 : utf16Length "Enclosures:".toList = 11 := rfl
  have h15 : utf16Length
      "Please quote the claim or deduction reference above in any reply about this dispute.".toList = 84 := rfl
  have hamountLength : amountLength (cents input.deductionAmountCents) = utf16Length (formatCents amount) := by
    rw [hamount]
    rfl
  have henclosed := linesLength_mapIdx enclosedLine enclosureLength utf16Length_enclosedLine input.documents
  have hchecklist := linesLength_checklist input.evidenceChecklist
  have hjoin : utf16Length (compose input (checkedOf input amount) findingLines) + 1 = linesLength _ :=
    utf16Length_joinLines (by simp)
  generalize utf16Length (compose input (checkedOf input amount) findingLines) = written at hjoin ⊢
  simp only [linesLength_append, linesLength_cons, linesLength_nil, utf16Length_append, utf16Length_nil,
    utf16Length_line, utf16Length_invoiceLine, linesLength_lineIfAny, checkedOf, henclosed, hchecklist, h1, h2, h3, h4,
    h5, h6, h7, h8, h9, h10, h11, h12, h13, h14, h15, Nat.reduceAdd] at hjoin
  rw [restLength, hamountLength]
  omega

/-! ## Findings cut to fit -/

theorem linesLength_trimmed (numbered : List Text) (kept : Nat) : linesLength (trimmedFindings numbered kept) =
    linesLength (numbered.take kept) + (decimal (numbered.length - kept)).length + 50 := by
  have hopen : utf16Length "  (".toList = 3 := rfl
  have hrest : utf16Length " further findings omitted; see the case page.)".toList = 46 := rfl
  rw [trimmedFindings, linesLength_append, linesLength_cons, linesLength_nil, utf16Length_append, utf16Length_append,
    hopen, hrest, utf16Length_decimal]
  omega

theorem length_decimal_add_le (n k : Nat) : (decimal (n + k)).length ≤ (decimal n).length + k := by
  induction k with
  | zero => exact Nat.le_refl _
  | succ k ih =>
    have hpos : 0 < (decimal (n + k)).length := List.length_pos_iff.2 (decimal_ne_nil _)
    have hlt : n + k < 10 ^ (decimal (n + k)).length := (length_decimal_le hpos).1 (Nat.le_refl _)
    have hpow : 0 < 10 ^ (decimal (n + k)).length := Nat.pow_pos (by decide)
    have hsucc : (decimal (n + k + 1)).length ≤ (decimal (n + k)).length + 1 :=
      (length_decimal_le (by omega)).2 (by rw [Nat.pow_succ]; omega)
    rw [← Nat.add_assoc]
    omega

theorem length_le_linesLength (lines : List Text) : lines.length ≤ linesLength lines := by
  induction lines with
  | nil => exact Nat.le_refl _
  | cons l lines ih =>
    rw [List.length_cons, linesLength_cons]
    omega

/-- Keeping no finding gives the shortest of the trimmed letters: a finding's newline is worth a digit. -/
theorem linesLength_trimmed_le {numbered : List Text} {kept : Nat} (hkept : kept ≤ numbered.length) :
    linesLength (trimmedFindings numbered 0) ≤ linesLength (trimmedFindings numbered kept) := by
  have htake := length_le_linesLength (numbered.take kept)
  have hdigits := length_decimal_add_le (numbered.length - kept) kept
  rw [List.length_take, Nat.min_eq_left hkept] at htake
  rw [Nat.sub_add_cancel hkept] at hdigits
  rw [linesLength_trimmed, linesLength_trimmed, List.take_zero, linesLength_nil, Nat.sub_zero]
  omega

/-- The loop ends on a letter that fits where there is one. -/
theorem keptFindings_fits {write : List Text → Text} {numbered : List Text} (n : Nat) :
    utf16Length (write (trimmedFindings numbered (keptFindings write numbered n))) ≤ maxNarrativeLength ↔
      ∃ kept ≤ n, utf16Length (write (trimmedFindings numbered kept)) ≤ maxNarrativeLength := by
  induction n with
  | zero => simp [keptFindings]
  | succ n ih =>
    rw [keptFindings]
    split
    case isTrue hfits => exact ⟨fun h => ⟨n + 1, Nat.le_refl _, h⟩, fun _ => hfits⟩
    case isFalse hlong =>
      rw [ih]
      constructor
      · rintro ⟨kept, hkept, h⟩
        exact ⟨kept, by omega, h⟩
      · rintro ⟨kept, hkept, h⟩
        refine ⟨kept, Nat.le_of_lt_succ (Nat.lt_of_le_of_ne hkept ?_), h⟩
        rintro rfl
        exact hlong h

/-- The findings' lines. -/
def findingLines (findings : List Finding) : List Text :=
  findings.mapIdx fun index finding => numberedLine (index + 1) (trim finding.message)

theorem findingLines_checkedOf (input : PacketNarrativeInput) (amount : Cents) :
    ((checkedOf input amount).findings.mapIdx fun index message => numberedLine (index + 1) message) =
      findingLines input.findings := by
  simp [checkedOf, findingLines, List.mapIdx_eq_iff, Function.comp_def]

theorem linesLength_findingLines (findings : List Finding) : linesLength (findingLines findings) =
    (findings.mapIdx fun index finding => numberedLength (index + 1) (trim finding.message)).sum :=
  linesLength_mapIdx (fun index (finding : Finding) => numberedLine (index + 1) (trim finding.message)) _
    (fun n finding => utf16Length_numberedLine (n + 1) (trim finding.message)) findings

/-- The letter fits where the shortest of its forms does. -/
theorem letter_fits_iff {input : PacketNarrativeInput} {amount : Cents}
    (hamount : cents input.deductionAmountCents = .ok amount) :
    utf16Length (letter input (checkedOf input amount)) ≤ maxNarrativeLength ↔
      letterLength input ≤ maxNarrativeLength := by
  have hheading : utf16Length "Findings:".toList = 9 := rfl
  have hwrite : ∀ lines, utf16Length (compose input (checkedOf input amount) lines) =
      restLength input + if lines = [] then 0 else 11 + linesLength lines := fun lines => by
    rw [utf16Length_compose hamount, linesLength_section, hheading]
  have hlength : (findingLines input.findings).length = input.findings.length := by simp [findingLines]
  have hnil : findingLines input.findings = [] ↔ input.findings = [] := by simp [findingLines]
  unfold letter letterLength findingsLength
  dsimp only
  rw [findingLines_checkedOf, ← linesLength_findingLines]
  by_cases hnone : input.findings = []
  · rw [if_neg fun h => h.2 (hnil.2 hnone), if_pos hnone, hwrite, if_pos (hnil.2 hnone)]
  have hlines : findingLines input.findings ≠ [] := fun h => hnone (hnil.1 h)
  have htrimmed : ∀ kept, trimmedFindings (findingLines input.findings) kept ≠ [] := fun kept => by
    simp [trimmedFindings]
  have hzero : linesLength (trimmedFindings (findingLines input.findings) 0) =
      (decimal input.findings.length).length + 50 := by
    rw [linesLength_trimmed, List.take_zero, linesLength_nil, Nat.sub_zero, hlength, Nat.zero_add]
  rw [if_neg hnone]
  split
  case isTrue hlong =>
    rw [hwrite, if_neg hlines] at hlong
    rw [keptFindings_fits]
    constructor
    · rintro ⟨kept, hkept, h⟩
      have hle : linesLength (trimmedFindings (findingLines input.findings) 0) ≤
          linesLength (trimmedFindings (findingLines input.findings) kept) := linesLength_trimmed_le (by omega)
      rw [hwrite, if_neg (htrimmed kept)] at h
      omega
    · intro h
      refine ⟨0, Nat.zero_le _, ?_⟩
      rw [hwrite, if_neg (htrimmed 0), hzero]
      omega
  case isFalse hshort =>
    have hfits : utf16Length (compose input (checkedOf input amount) (findingLines input.findings)) ≤
        maxNarrativeLength := by
      by_contra hlong
      exact hshort ⟨Nat.lt_of_not_le hlong, hlines⟩
    rw [hwrite, if_neg hlines] at hfits ⊢
    omega

/-! ## The checks -/

/-- One line of plain text: no control character within. -/
def isPlainText (value : Text) : Bool := !(trim value).any fun c => c.toNat < 0x20 || c.toNat == 0x7f

/-- Every check of `buildPacketNarrative` but the one on the length. -/
structure Sound (input : PacketNarrativeInput) : Prop where
  reason : isCanonicalReasonCode input.reason = true
  supplier : trim input.supplier ≠ []
  rationale : trim input.rationale ≠ []
  documents : input.documents ≠ []
  enclosed : ∀ document ∈ input.documents, trim document.filename ≠ [] ∧ ∀ hash ∈ document.sha256, isSha256Hex hash
  payerReasonCode : ∀ code ∈ input.payerReasonCode, isPlainText code
  deductionReference : ∀ reference ∈ input.deductionReference, isPlainText reference
  findings : ∀ finding ∈ input.findings, isPlainText finding.code ∧ isPlainText finding.message
  checklist : ∀ row ∈ input.evidenceChecklist, isPlainText row.1
  amount : -maxSafe ≤ input.deductionAmountCents ∧ input.deductionAmountCents ≤ maxSafe

theorem assertPlainText_ok {label value t : Text} :
    assertPlainText label value = .ok t ↔ isPlainText value = true ∧ t = trim value := by
  unfold assertPlainText isPlainText
  split
  case isTrue h => simp [h]
  case isFalse h => simp [h, eq_comm]

theorem checkDocument_ok {document : PacketDocument} :
    checkDocument document = .ok () ↔ trim document.filename ≠ [] ∧ ∀ hash ∈ document.sha256, isSha256Hex hash := by
  have hdigest : (document.sha256.any fun hash => !isSha256Hex hash) = true ↔
      ¬ ∀ hash ∈ document.sha256, isSha256Hex hash := by
    cases document.sha256 <;> simp
  unfold checkDocument
  split
  case isTrue hname =>
    constructor
    · intro h
      cases h
    · exact fun h => absurd hname h.1
  case isFalse hname =>
    split
    case isTrue hbad =>
      constructor
      · intro h
        cases h
      · exact fun h => absurd h.2 (hdigest.1 hbad)
    case isFalse hgood => exact ⟨fun _ => ⟨hname, not_not.1 (mt hdigest.2 hgood)⟩, fun _ => rfl⟩

theorem optionMapM_ok {label : Text} {value t : Option Text} :
    value.mapM (assertPlainText label) = .ok t ↔ (∀ v ∈ value, isPlainText v = true) ∧ t = value.map trim := by
  cases value with
  | none => exact ⟨fun h => ⟨fun v hv => (by cases hv), (Except.ok.inj h).symm⟩, fun h => congrArg Except.ok h.2.symm⟩
  | some v =>
    have hforall : (∀ w ∈ some v, isPlainText w = true) ↔ isPlainText v = true := by simp
    have hmap : (some v).mapM (assertPlainText label) = (assertPlainText label v).map some := by
      cases h : assertPlainText label v <;> simp [h, Except.map]
    rw [hmap, map_ok, hforall]
    constructor
    · rintro ⟨w, hw, rfl⟩
      obtain ⟨hplain, rfl⟩ := assertPlainText_ok.1 hw
      exact ⟨hplain, rfl⟩
    · rintro ⟨hplain, rfl⟩
      exact ⟨trim v, assertPlainText_ok.2 ⟨hplain, rfl⟩, rfl⟩

theorem checkInput_ok {input : PacketNarrativeInput} {checked : Checked} : checkInput input = .ok checked ↔
    Sound input ∧ ∃ amount, cents input.deductionAmountCents = .ok amount ∧ checked = checkedOf input amount := by
  have hfinding : ∀ (finding : Finding) (t : Text),
      (assertPlainText "a finding code".toList finding.code >>= fun _ =>
        assertPlainText "a finding".toList finding.message) = .ok t ↔
      (isPlainText finding.code = true ∧ isPlainText finding.message = true) ∧ t = trim finding.message := by
    intro finding t
    rw [bind_ok]
    simp only [assertPlainText_ok]
    constructor
    · rintro ⟨_, ⟨hcode, -⟩, hmessage, ht⟩
      exact ⟨⟨hcode, hmessage⟩, ht⟩
    · rintro ⟨⟨hcode, hmessage⟩, ht⟩
      exact ⟨_, ⟨hcode, rfl⟩, hmessage, ht⟩
  have hrow : ∀ (row : Text × Bool) (t : Text),
      (assertPlainText "an evidence checklist label".toList row.1 >>= fun label =>
        pure ("  [".toList ++ (if row.2 then ['x'] else [' ']) ++ "] ".toList ++ label)) = .ok t ↔
      isPlainText row.1 = true ∧
        t = "  [".toList ++ (if row.2 then ['x'] else [' ']) ++ "] ".toList ++ trim row.1 := by
    intro row t
    rw [bind_ok]
    simp only [assertPlainText_ok]
    constructor
    · rintro ⟨_, ⟨hplain, rfl⟩, ht⟩
      exact ⟨hplain, (Except.ok.inj ht).symm⟩
    · rintro ⟨hplain, rfl⟩
      exact ⟨_, ⟨hplain, rfl⟩, rfl⟩
  unfold checkInput
  simp only [throw_if_ok, bind_ok]
  constructor
  · rintro ⟨hreason, hsupplier, hrationale, hdocuments, _, henclosed, code, hcode, reference, hreference, findings,
      hfindings, checklist, hchecklist, hamount⟩
    obtain ⟨hcodes, rfl⟩ := optionMapM_ok.1 hcode
    obtain ⟨hreferences, rfl⟩ := optionMapM_ok.1 hreference
    obtain ⟨hmessages, rfl⟩ := (mapM_ok_iff hfinding).1 hfindings
    obtain ⟨hlabels, rfl⟩ := (mapM_ok_iff hrow).1 hchecklist
    have hdocument := fun document hmem => checkDocument_ok.1 (forM_ok.1 henclosed document hmem)
    cases hcents : cents input.deductionAmountCents with
    | error e =>
      rw [hcents] at hamount
      cases hamount
    | ok amount =>
      rw [hcents] at hamount
      refine ⟨⟨by simpa using hreason, hsupplier, hrationale, hdocuments, hdocument, hcodes, hreferences, hmessages,
        hlabels, ?_⟩, amount, rfl, (Except.ok.inj hamount).symm⟩
      rw [← cents_ok.1 hcents]
      exact ⟨amount.lower, amount.upper⟩
  · rintro ⟨h, amount, hcents, rfl⟩
    refine ⟨by simp [h.reason], h.supplier, h.rationale, h.documents, (), forM_ok.2 fun d hd => checkDocument_ok.2
      (h.enclosed d hd), _, optionMapM_ok.2 ⟨h.payerReasonCode, rfl⟩, _, optionMapM_ok.2 ⟨h.deductionReference, rfl⟩,
      _, (mapM_ok_iff hfinding).2 ⟨h.findings, rfl⟩, _, (mapM_ok_iff hrow).2 ⟨h.checklist, rfl⟩, ?_⟩
    rw [hcents]
    rfl

/-- The builder gives a letter, and one that the packet record holds. -/
def Builds (input : PacketNarrativeInput) : Prop :=
  ∃ narrative, buildPacketNarrative input = .ok narrative ∧ utf16Length narrative ≤ maxNarrativeLength

theorem letterLength_le_of_builds {input : PacketNarrativeInput} (h : Builds input) :
    Sound input ∧ letterLength input ≤ maxNarrativeLength := by
  obtain ⟨narrative, hbuilt, -⟩ := h
  unfold buildPacketNarrative at hbuilt
  obtain ⟨checked, hchecked, hbuilt⟩ := bind_ok.1 hbuilt
  obtain ⟨hsound, amount, hamount, rfl⟩ := checkInput_ok.1 hchecked
  dsimp only at hbuilt
  split at hbuilt
  case isTrue => cases hbuilt
  case isFalse hfits => exact ⟨hsound, (letter_fits_iff hamount).1 (Nat.le_of_not_lt hfits)⟩

theorem builds_of_length {input : PacketNarrativeInput} (hsound : Sound input)
    (hlength : letterLength input ≤ maxNarrativeLength) : Builds input := by
  obtain ⟨amount, hamount⟩ : ∃ amount, cents input.deductionAmountCents = .ok amount := ⟨_, dif_pos hsound.amount⟩
  have hfits := (letter_fits_iff hamount).2 hlength
  refine ⟨letter input (checkedOf input amount), ?_, hfits⟩
  refine bind_ok.2 ⟨checkedOf input amount, checkInput_ok.2 ⟨hsound, amount, hamount, rfl⟩, ?_⟩
  generalize letter input (checkedOf input amount) = narrative at hfits ⊢
  exact if_neg (Nat.not_lt.2 hfits)

/-- A letter is built exactly where its values are sound and its shortest form fits. -/
theorem builds_iff_length (input : PacketNarrativeInput) :
    Builds input ↔ Sound input ∧ letterLength input ≤ maxNarrativeLength :=
  ⟨letterLength_le_of_builds, fun h => builds_of_length h.1 h.2⟩

/-! ## The budget -/

/-- Every value is within the cap its row of the budget gives it. -/
structure WithinCaps (input : PacketNarrativeInput) : Prop extends Sound input where
  supplier_le : utf16Length (trim input.supplier) ≤ 200
  payer_le : ∀ payer ∈ input.payer, utf16Length payer ≤ 500
  claimId_le : ∀ claimId ∈ input.claimId, utf16Length claimId ≤ 200
  invoiceNumber_le : ∀ number ∈ input.invoiceNumbers, utf16Length number ≤ 200
  invoiceNumbers_le : (firstSeen (input.invoiceNumbers.filter fun n => trim n ≠ [])).length ≤ 10
  deductionDate_le : ∀ date ∈ input.deductionDate, utf16Length date ≤ 10
  disputeDeadline_le : ∀ date ∈ input.disputeDeadline, utf16Length date ≤ 10
  reason_le : utf16Length (reasonInWords input.reason) ≤ 100
  rationale_le : utf16Length (trim input.rationale) ≤ maxRationaleLength
  documents_le : input.documents.length ≤ 25
  filename_le : ∀ document ∈ input.documents, utf16Length document.filename ≤ 255

/-- Nothing of what the budget has no row for. -/
structure Bare (input : PacketNarrativeInput) : Prop where
  digests : ∀ document ∈ input.documents, document.sha256 = none
  payerReasonCode : input.payerReasonCode = none
  deductionReference : input.deductionReference = none
  findings : input.findings = []
  checklist : input.evidenceChecklist = []

theorem shownLength_le {value : Option Text} {n : Nat} (h : ∀ t ∈ value, utf16Length t ≤ n) (hn : 14 ≤ n) :
    shownLength value ≤ n := by
  rcases value with - | - | ⟨c, cs⟩
  · exact hn
  · exact hn
  · exact h _ rfl

theorem lineIfAnyLength_le (label : Nat) {value : Option Text} {n : Nat} (h : ∀ t ∈ value, utf16Length t ≤ n) :
    lineIfAnyLength label value ≤ label + n + 1 := by
  rcases value with - | - | ⟨c, cs⟩
  · exact Nat.zero_le _
  · exact Nat.zero_le _
  · have := h _ rfl
    show label + utf16Length (c :: cs) + 1 ≤ _
    omega

theorem sum_le_of_forall {α : Type} (f : α → Nat) {n : Nat} {as : List α} (h : ∀ a ∈ as, f a ≤ n) :
    (as.map f).sum ≤ as.length * n := by
  have := List.sum_le_card_nsmul (as.map f) n (by simpa using h)
  simpa using this

theorem invoicesLength_le {input : PacketNarrativeInput} (h : WithinCaps input) :
    invoicesLength input.invoiceNumbers ≤ 2035 := by
  have hcap := h.invoiceNumbers_le
  have hmem : ∀ n ∈ firstSeen (input.invoiceNumbers.filter fun n => trim n ≠ []), utf16Length n ≤ 200 :=
    fun n hn => h.invoiceNumber_le n (List.mem_of_mem_filter (mem_firstSeen.1 hn))
  unfold invoicesLength
  dsimp only
  generalize firstSeen (input.invoiceNumbers.filter fun n => trim n ≠ []) = invoices at hcap hmem ⊢
  split
  · have hsum := sum_le_of_forall (fun n => utf16Length n + 2) (n := 202) fun n hn => by
      have := hmem n hn
      omega
    omega
  · have hhead : shownLength invoices.head? ≤ 200 :=
      shownLength_le (fun t ht => hmem t (List.mem_of_mem_head? ht)) (by decide)
    omega

theorem utf16Length_le (t : Text) : utf16Length t ≤ 2 * t.length := by
  induction t with
  | nil => exact Nat.le_refl _
  | cons c cs ih =>
    have hc : (units c).length ≤ 2 := by unfold units; split <;> simp
    rw [utf16Length_cons, List.length_cons]
    omega

theorem length_groups_le (t : Text) : (groups t).length ≤ 2 * t.length := by
  induction t using groups.induct with
  | case1 a b c d rest ih =>
    rw [groups]
    simp only [List.length_cons] at ih ⊢
    omega
  | case2 short h =>
    rw [groups]
    · omega
    · exact h

theorem amountLength_le (value : Int) : amountLength (cents value) ≤ 66 := by
  cases h : cents value with
  | error e => exact Nat.zero_le _
  | ok amount =>
    have hlower := amount.lower
    have hupper := amount.upper
    have hdigits : (decimal (amount.val.natAbs / 100)).length ≤ 14 :=
      (length_decimal_le (by decide)).2 (by unfold maxSafe at *; omega)
    have hgroups := length_groups_le (decimal (amount.val.natAbs / 100)).reverse
    have hlength := utf16Length_le (formatCents amount)
    have hsign : (if amount.val < 0 then ['-'] else []).length ≤ 1 := by split <;> simp
    have hcents : (decimal (amount.val.natAbs % 100)).length ≤ 2 :=
      (length_decimal_le (by decide)).2 (Nat.mod_lt _ (by decide))
    have hpad : (padTwo (amount.val.natAbs % 100)).length = 2 := by
      rw [padTwo, List.length_append, List.length_replicate]
      omega
    have hformat : (formatCents amount).length =
        (if amount.val < 0 then ['-'] else []).length + (groups (decimal (amount.val.natAbs / 100)).reverse).length +
          (padTwo (amount.val.natAbs % 100)).length + 2 := by
      rw [formatCents, List.length_append, List.length_cons, List.length_append, List.length_cons, localeDecimal,
        List.length_reverse]
      omega
    rw [List.length_reverse] at hgroups
    show utf16Length (formatCents amount) ≤ 66
    omega

theorem enclosures_le {documents : List PacketDocument} (hlength : documents.length ≤ 25)
    (hname : ∀ document ∈ documents, utf16Length document.filename ≤ 255)
    (hbare : ∀ document ∈ documents, document.sha256 = none) :
    (documents.mapIdx enclosureLength).sum ≤ 25 * 283 := by
  have hline : ∀ n ∈ documents.mapIdx enclosureLength, n ≤ 283 := by
    intro n hn
    obtain ⟨i, hi, rfl⟩ := List.mem_mapIdx.1 hn
    have hmem : documents[i] ∈ documents := List.getElem_mem hi
    have hfilename := hname _ hmem
    have hindex : (decimal (i + 1)).length ≤ 2 := (length_decimal_le (by decide)).2 (by omega)
    have hrole : utf16Length documents[i].role.words ≤ 19 := by cases documents[i].role <;> decide
    have hcolon : utf16Length ": ".toList = 2 := rfl
    rw [enclosureLength, hbare _ hmem, numberedLength, utf16Length_append, utf16Length_append, hcolon]
    dsimp only
    omega
  have hsum := List.sum_le_card_nsmul _ 283 hline
  rw [List.length_mapIdx, smul_eq_mul] at hsum
  exact Nat.le_trans hsum (Nat.mul_le_mul_right _ hlength)

/-- What the table of the budget adds up to: a letter with nothing the table leaves out is always built. -/
theorem budget_covers_bare_letter {input : PacketNarrativeInput} (h : WithinCaps input) (hbare : Bare input) :
    Builds input := by
  apply builds_of_length h.toSound
  have hsupplier := h.supplier_le
  have hrationale := h.rationale_le
  have hpayer := shownLength_le h.payer_le (by decide)
  have hclaim := shownLength_le h.claimId_le (by decide)
  have hinvoices := invoicesLength_le h
  have hamount := amountLength_le input.deductionAmountCents
  have hdate : shownLength input.deductionDate ≤ 14 :=
    shownLength_le (fun t ht => Nat.le_trans (h.deductionDate_le t ht) (by decide)) (Nat.le_refl _)
  have hdeadline := lineIfAnyLength_le 18 h.disputeDeadline_le
  have hreason := h.reason_le
  have henclosures := enclosures_le h.documents_le h.filename_le hbare.digests
  have hmax : maxRationaleLength = 8872 := rfl
  have hlimit : maxNarrativeLength = 20000 := rfl
  have hcode : lineIfAnyLength 21 (input.payerReasonCode.map trim) = 0 := by rw [hbare.payerReasonCode]; rfl
  have hreference : lineIfAnyLength 21 (input.deductionReference.map trim) = 0 := by
    rw [hbare.deductionReference]; rfl
  have hchecklist : checklistLength input.evidenceChecklist = 0 := by rw [hbare.checklist]; rfl
  have hfindings : findingsLength input.findings = 0 := by rw [hbare.findings]; rfl
  rw [letterLength, restLength, hcode, hreference, hchecklist, hfindings]
  omega

/-! ## A letter over the limit -/

def enclosure : PacketDocument where
  role := .evidence
  filename := List.replicate 255 'f'
  sha256 := some (List.replicate 64 'a')

/-- Twenty-five supporting documents with their digests, every value at its cap. -/
def everythingAtItsCap : PacketNarrativeInput where
  supplier := List.replicate 200 'S'
  claimId := some (List.replicate 200 'C')
  payer := some (List.replicate 500 'P')
  invoiceNumbers := (List.range 10).map fun i => decimal i ++ List.replicate 199 'I'
  deductionAmountCents := maxSafe
  deductionDate := some "2026-08-14".toList
  disputeDeadline := some "2026-10-13".toList
  reason := "shortage_quantity".toList
  rationale := List.replicate 8872 'x'
  documents := List.replicate 25 enclosure
  findings := []
  payerReasonCode := none
  deductionReference := none
  evidenceChecklist := []

theorem utf16Length_replicate (n : Nat) {c : Char} (hc : c.toNat < 0x10000) : utf16Length (List.replicate n c) = n := by
  rw [utf16Length_ascii fun d hd => by rwa [List.eq_of_mem_replicate hd], List.length_replicate]

theorem trim_replicate (n : Nat) {c : Char} (hc : isSpace c = false) : trim (List.replicate n c) = List.replicate n c :=
  trimmed_of_isSpace fun d hd => by rwa [List.eq_of_mem_replicate hd]

theorem filename_length : utf16Length enclosure.filename = 255 := utf16Length_replicate 255 (by decide)

theorem supplier_length : utf16Length (trim everythingAtItsCap.supplier) = 200 := by
  show utf16Length (trim (List.replicate 200 'S')) = 200
  rw [trim_replicate 200 (by decide), utf16Length_replicate 200 (by decide)]

theorem rationale_length : utf16Length (trim everythingAtItsCap.rationale) = 8872 := by
  show utf16Length (trim (List.replicate 8872 'x')) = 8872
  rw [trim_replicate 8872 (by decide), utf16Length_replicate 8872 (by decide)]

theorem invoiceNumber_length {number : Text} (h : number ∈ everythingAtItsCap.invoiceNumbers) :
    utf16Length number = 200 := by
  obtain ⟨i, hi, rfl⟩ := List.mem_map.1 h
  have hdigit : (decimal i).length = 1 := by
    have hpos := List.length_pos_iff.2 (decimal_ne_nil i)
    have hle := (length_decimal_le (n := i) (k := 1) (by decide)).2 (List.mem_range.1 hi)
    omega
  rw [utf16Length_append, utf16Length_decimal, utf16Length_replicate 199 (by decide), hdigit]

theorem ne_nil_of_length {t : Text} (h : 0 < utf16Length t) : t ≠ [] := by
  rintro rfl
  exact absurd h (by decide)

theorem everythingAtItsCap_within : WithinCaps everythingAtItsCap where
  reason := by decide
  supplier := ne_nil_of_length (by rw [supplier_length]; decide)
  rationale := ne_nil_of_length (by rw [rationale_length]; decide)
  documents := List.cons_ne_nil _ _
  enclosed document hmem := by
    obtain rfl : document = enclosure := List.eq_of_mem_replicate hmem
    refine ⟨by decide, ?_⟩
    rintro hash ⟨⟩
    decide
  payerReasonCode _ hcode := by cases hcode
  deductionReference _ hreference := by cases hreference
  findings _ hfinding := by cases hfinding
  checklist _ hrow := by cases hrow
  amount := by decide
  supplier_le := Nat.le_of_eq supplier_length
  payer_le := by rintro payer ⟨⟩; exact Nat.le_of_eq (utf16Length_replicate 500 (by decide))
  claimId_le := by rintro claimId ⟨⟩; exact Nat.le_of_eq (utf16Length_replicate 200 (by decide))
  invoiceNumber_le _ h := Nat.le_of_eq (invoiceNumber_length h)
  invoiceNumbers_le := by decide
  deductionDate_le := by rintro date ⟨⟩; decide
  disputeDeadline_le := by rintro date ⟨⟩; decide
  reason_le := by decide
  rationale_le := Nat.le_of_eq rationale_length
  documents_le := by decide
  filename_le document hmem := by
    obtain rfl : document = enclosure := List.eq_of_mem_replicate hmem
    exact Nat.le_of_eq filename_length

theorem le_enclosures : 25 * 357 ≤ (everythingAtItsCap.documents.mapIdx enclosureLength).sum := by
  have hline : ∀ n ∈ everythingAtItsCap.documents.mapIdx enclosureLength, 357 ≤ n := by
    intro n hn
    obtain ⟨i, hi, rfl⟩ := List.mem_mapIdx.1 hn
    have hdocument : everythingAtItsCap.documents[i] = enclosure := List.eq_of_mem_replicate (List.getElem_mem hi)
    have hindex := List.length_pos_iff.2 (decimal_ne_nil (i + 1))
    have hrole : utf16Length enclosure.role.words = 19 := rfl
    have hcolon : utf16Length ": ".toList = 2 := rfl
    have hdigest : utf16Length (List.replicate 64 'a') = 64 := utf16Length_replicate 64 (by decide)
    rw [hdocument, enclosureLength, numberedLength, utf16Length_append, utf16Length_append, hrole, hcolon,
      filename_length]
    show 357 ≤ _ + (11 + utf16Length (List.replicate 64 'a'))
    omega
  have hsum := List.card_nsmul_le_sum _ 357 hline
  rwa [List.length_mapIdx, smul_eq_mul] at hsum

theorem le_invoices : 2035 ≤ invoicesLength everythingAtItsCap.invoiceNumbers := by
  have hten : (firstSeen (everythingAtItsCap.invoiceNumbers.filter fun n => trim n ≠ [])).length = 10 := by
    decide
  have hmem : ∀ n ∈ firstSeen (everythingAtItsCap.invoiceNumbers.filter fun n => trim n ≠ []), utf16Length n = 200 :=
    fun n hn => invoiceNumber_length (List.mem_of_mem_filter (mem_firstSeen.1 hn))
  unfold invoicesLength
  dsimp only
  generalize firstSeen (everythingAtItsCap.invoiceNumbers.filter fun n => trim n ≠ []) = invoices at hten hmem ⊢
  have hsum := List.card_nsmul_le_sum (invoices.map fun n => utf16Length n + 2) 202 (by
    intro m hm
    obtain ⟨n, hn, rfl⟩ := List.mem_map.1 hm
    rw [hmem n hn])
  rw [List.length_map, hten, smul_eq_mul] at hsum
  rw [if_pos (by omega)]
  omega

/-- Every value is within its cap and the letter is refused: its digests are in no row of the budget. -/
theorem digests_overrun : ¬ ∀ input : PacketNarrativeInput, WithinCaps input → Builds input := by
  intro h
  have hlength := (letterLength_le_of_builds (h everythingAtItsCap everythingAtItsCap_within)).2
  have hpayer : shownLength everythingAtItsCap.payer = 500 := utf16Length_replicate 500 (by decide)
  have hclaim : shownLength everythingAtItsCap.claimId = 200 := utf16Length_replicate 200 (by decide)
  have hinvoices := le_invoices
  have henclosures := le_enclosures
  have hlimit : maxNarrativeLength = 20000 := rfl
  rw [letterLength, restLength, supplier_length, rationale_length, hpayer, hclaim] at hlength
  omega

end Recouple.Packet
