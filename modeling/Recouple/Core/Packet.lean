import Recouple.Core.Money
import Recouple.Lib.FirstSeen
import Recouple.Lib.Json
import Recouple.Lib.KeyedFold

/-!
# The dispute letter and its hash: `packet.ts`, `reason-words.ts`

`buildPacketNarrative` writes the letter a packet encloses, and `packetContents` is the text its hash covers. The
messages of a `PacketError` are the source's.
-/

namespace Recouple.Packet
open Js FirstSeen

/-- `REASON_WORDS`, in the order of `CANONICAL_REASON_CODES`. -/
def reasonWords : List (Text × Text) :=
  [("shortage_quantity".toList, "Shortage deducted for units that were shipped and delivered".toList),
    ("shortage_carton".toList, "Carton shortage deducted on a shipment delivered in full".toList),
    ("shortage_concealed".toList, "Concealed shortage claimed after a clean delivery receipt".toList),
    ("shortage_never_received".toList,
      "Shipment deducted as never received, though delivery is documented".toList),
    ("shortage_pallet".toList, "Pallet shortage deducted on a shipment delivered in full".toList),
    ("price_discrepancy".toList, "Paid at a price other than the agreed price".toList),
    ("price_unauthorised_change".toList, "Price changed without agreement".toList),
    ("cost_increase_not_honoured".toList, "An agreed cost increase was not honoured".toList),
    ("unauthorised_deduction_no_basis".toList,
      "Deduction taken with no stated basis or supporting documentation".toList),
    ("substitution_price".toList, "Substituted item deducted at the wrong price".toList),
    ("compliance_otif".toList, "On-time or fill-rate fine that the delivery records do not support".toList),
    ("compliance_late_delivery".toList, "Late-delivery fine that the delivery records do not support".toList),
    ("compliance_early_delivery".toList, "Early-delivery fine that the delivery records do not support".toList),
    ("compliance_asn_missing".toList, "Missing-ASN fine that the transmission records do not support".toList),
    ("compliance_asn_inaccurate".toList,
      "Inaccurate-ASN fine that the transmission records do not support".toList),
    ("compliance_label_barcode".toList,
      "Labelling or barcode fine that the shipment records do not support".toList),
    ("compliance_packaging".toList, "Packaging fine that the shipment records do not support".toList),
    ("compliance_routing_guide".toList, "Routing-guide fine that the shipment records do not support".toList),
    ("compliance_appointment_missed".toList,
      "Missed-appointment fine that the appointment records do not support".toList),
    ("compliance_pallet_spec".toList,
      "Pallet-specification fine that the shipment records do not support".toList),
    ("duplicate_payment".toList, "Deducted as a duplicate payment, though the invoice was paid once".toList),
    ("duplicate_claim".toList, "The same claim deducted twice".toList),
    ("duplicate_invoice_deduction".toList, "The same invoice deducted twice".toList),
    ("return_unsaleable".toList, "Unsaleables deduction the agreement does not provide for".toList),
    ("return_authorised".toList, "Return deducted beyond what was authorised".toList),
    ("return_unauthorised".toList, "Return deducted without authorisation".toList),
    ("return_handling_fee".toList, "Return handling fee the agreement does not provide for".toList),
    ("promo_allowance_claimed".toList, "Promotional allowance deducted beyond what was agreed".toList),
    ("promo_not_agreed".toList, "Promotion or allowance that was never agreed".toList),
    ("promo_duplicate_allowance".toList, "The same allowance deducted twice".toList),
    ("promo_rate_mismatch".toList, "Allowance deducted at a rate other than the agreed rate".toList),
    ("markdown_allowance".toList, "Markdown allowance that was never agreed".toList),
    ("coop_advertising".toList, "Co-op advertising deduction that was not agreed or not performed".toList),
    ("new_store_allowance".toList, "New-store allowance that was never agreed".toList),
    ("freight_prepaid_billed".toList, "Freight charged on a prepaid shipment".toList),
    ("freight_rate_mismatch".toList, "Freight charged at a rate other than the agreed rate".toList),
    ("freight_unauthorised_carrier".toList, "Carrier charge the routing instructions do not support".toList),
    ("detention_or_layover".toList, "Detention or layover charge the delivery records do not support".toList),
    ("quality_damaged_in_transit".toList,
      "Damage deducted that occurred after the goods left the supplier".toList),
    ("quality_expired_short_dated".toList,
      "Deducted as short-dated, though shipped within the agreed date code".toList),
    ("quality_spec_mismatch".toList,
      "Deducted as out of specification, though it met the agreed specification".toList),
    ("post_audit_pricing".toList, "Post-audit pricing claim the invoices and agreements do not support".toList),
    ("post_audit_allowance".toList, "Post-audit allowance claim the agreements do not support".toList),
    ("post_audit_freight".toList, "Post-audit freight claim the freight records do not support".toList),
    ("unknown_uncoded".toList, "Other — set out in the explanation".toList),
    ("administrative_fee".toList, "Administrative fee the agreement does not provide for".toList),
    ("tax_adjustment".toList, "Tax adjustment the invoices do not support".toList)]

/-- `isCanonicalReasonCode` -/
def isCanonicalReasonCode (value : Text) : Bool := (reasonWords.lookup value).isSome

/-- `reasonInWords` -/
def reasonInWords (code : Text) : Text := (reasonWords.lookup code).getD []

def maxNarrativeLength : Nat := 20000

/-- `NARRATIVE_BUDGET_WITHOUT_RATIONALE` -/
def narrativeBudgetWithoutRationale : Nat := 340 + 2 * 200 + 500 + 200 + 10 * 202 + 2 * 24 + 10 + 10 + 100 + 7500

def maxRationaleLength : Nat := maxNarrativeLength - narrativeBudgetWithoutRationale

inductive DocumentRole
  | notice | evidence | remittance | context
deriving DecidableEq

/-- `ENCLOSURE_ROLE_WORDS` -/
def DocumentRole.words : DocumentRole → Text
  | .notice => "Deduction notice".toList
  | .evidence => "Supporting document".toList
  | .remittance => "Remittance advice".toList
  | .context => "Reference document".toList

structure PacketDocument where
  role : DocumentRole
  filename : Text
  sha256 : Option Text
deriving DecidableEq

structure Finding where
  code : Text
  message : Text
deriving DecidableEq

/-- The payer's terms and the checklist, which the store derives when it assembles. -/
structure LetterTerms where
  payerReasonCode : Option Text
  deductionReference : Option Text
  evidenceChecklist : List (Text × Bool)
deriving DecidableEq

structure PacketNarrativeInput extends LetterTerms where
  supplier : Text
  claimId : Option Text
  payer : Option Text
  invoiceNumbers : List Text
  deductionAmountCents : Int
  deductionDate : Option Text
  disputeDeadline : Option Text
  reason : Text
  rationale : Text
  documents : List PacketDocument
  findings : List Finding
deriving DecidableEq

/-- `SHA256_HEX` -/
def isSha256Hex (t : Text) : Bool := t.length = 64 && t.all fun c => c.isDigit || ('a' ≤ c && c ≤ 'f')

/-- `assertPlainText` -/
def assertPlainText (label value : Text) : Except Text Text :=
  if (trim value).any fun c => c.toNat < 0x20 || c.toNat == 0x7f then
    .error (label ++ " holds a control character; a letter line is plain text".toList)
  else .ok (trim value)

/-- `line` -/
def line (label : Text) (value : Option Text) : Text :=
  label ++ ": ".toList ++ match value with
    | none | some [] => "(not recorded)".toList
    | some value => value

/-- A line the letter leaves out where it has no value. -/
def lineIfAny (label : Text) (value : Option Text) : List Text :=
  match value with
  | none | some [] => []
  | some value => [line label (some value)]

def numberedLine (n : Nat) (text : Text) : Text := "  ".toList ++ decimal n ++ ". ".toList ++ text

/-- A section of the letter, left out where it is empty. -/
def letterSection (heading : Text) (lines : List Text) : List Text :=
  if lines = [] then [] else heading :: lines ++ [[]]

def joinLines (lines : List Text) : Text := ['\n'].intercalate lines

/-- The invoice line: the numbers once each, in code-unit order. -/
def invoiceLine (invoiceNumbers : List Text) : Text :=
  let invoices := (firstSeen (invoiceNumbers.filter fun n => trim n ≠ [])).mergeSort (textLe · ·)
  if 1 < invoices.length then "Invoice numbers: ".toList ++ ", ".toList.intercalate invoices
  else line "Invoice number".toList invoices.head?

/-- What the letter says of the parts that are checked before it is composed. -/
structure Checked where
  supplier : Text
  rationale : Text
  payerReasonCode : Option Text
  deductionReference : Option Text
  findings : List Text
  checklist : List Text
  amount : Text

def checkDocument (document : PacketDocument) : Except Text Unit :=
  if trim document.filename = [] then .error "every enclosed document has to be named".toList
  else if document.sha256.any fun hash => !isSha256Hex hash then
    .error "an enclosure's SHA-256 is 64 lower-case hex characters".toList
  else .ok ()

/-- The refusals of `buildPacketNarrative` before it composes anything, in its order. -/
def checkInput (input : PacketNarrativeInput) : Except Text Checked := do
  if isCanonicalReasonCode input.reason = false then
    throw (input.reason ++ " is not a canonical reason code".toList)
  if trim input.supplier = [] then throw "a dispute letter has to say who it is from".toList
  if trim input.rationale = [] then
    throw "a dispute needs a rationale: the analyst says why, in their words".toList
  if input.documents = [] then throw "a packet with no documents is not a packet".toList
  input.documents.forM checkDocument
  let payerReasonCode ← input.payerReasonCode.mapM (assertPlainText "the payer's reason code".toList)
  let deductionReference ← input.deductionReference.mapM (assertPlainText "the deduction reference".toList)
  let findings ← input.findings.mapM fun finding => do
    let _ ← assertPlainText "a finding code".toList finding.code
    assertPlainText "a finding".toList finding.message
  let checklist ← input.evidenceChecklist.mapM fun (label, satisfied) => do
    let label ← assertPlainText "an evidence checklist label".toList label
    return "  [".toList ++ (if satisfied then ['x'] else [' ']) ++ "] ".toList ++ label
  let amount ← match cents input.deductionAmountCents with
    | .ok amount => .ok (formatCents amount)
    | .error _ => .error "not an exact number of cents".toList
  return ⟨trim input.supplier, trim input.rationale, payerReasonCode, deductionReference, findings, checklist, amount⟩

def enclosedLine (index : Nat) (document : PacketDocument) : Text :=
  numberedLine (index + 1) (document.role.words ++ ": ".toList ++ document.filename ++
    match document.sha256 with
    | some hash => " (SHA-256 ".toList ++ hash ++ ")".toList
    | none => [])

/-- `compose` -/
def compose (input : PacketNarrativeInput) (checked : Checked) (findingLines : List Text) : Text :=
  joinLines <|
    ["DISPUTE OF DEDUCTION".toList, [], "From: ".toList ++ checked.supplier, line "To".toList input.payer, [],
      line "Claim or deduction reference".toList input.claimId, invoiceLine input.invoiceNumbers,
      "Amount deducted: ".toList ++ checked.amount, line "Deduction date".toList input.deductionDate] ++
    lineIfAny "Dispute deadline".toList input.disputeDeadline ++
    [[], checked.supplier ++ " disputes this deduction in full and asks that ".toList ++ checked.amount ++
        " be repaid.".toList, [],
      "Reason for dispute: ".toList ++ reasonInWords input.reason] ++
    lineIfAny "Payer's reason code".toList checked.payerReasonCode ++
    lineIfAny "Deduction reference".toList checked.deductionReference ++
    [[]] ++ letterSection "Findings:".toList findingLines ++
    ["Explanation:".toList, checked.rationale, []] ++
    letterSection "Evidence checklist:".toList checked.checklist ++
    ["Enclosures:".toList] ++ input.documents.mapIdx enclosedLine ++
    [[], "Please quote the claim or deduction reference above in any reply about this dispute.".toList, []]

/-- The findings cut to as many as fit, and a line for the rest. -/
def trimmedFindings (numbered : List Text) (kept : Nat) : List Text :=
  numbered.take kept ++ ["  (".toList ++ decimal (numbered.length - kept) ++
    " further findings omitted; see the case page.)".toList]

/-- How many findings stay: the most that fit, or none. -/
def keptFindings (write : List Text → Text) (numbered : List Text) : Nat → Nat
  | 0 => 0
  | kept + 1 =>
    if utf16Length (write (trimmedFindings numbered (kept + 1))) ≤ maxNarrativeLength then kept + 1
    else keptFindings write numbered kept

/-- The letter with all its findings, or with as many as fit. -/
def letter (input : PacketNarrativeInput) (checked : Checked) : Text :=
  let numbered := checked.findings.mapIdx fun index message => numberedLine (index + 1) message
  let write := compose input checked
  if maxNarrativeLength < utf16Length (write numbered) ∧ numbered ≠ [] then
    write (trimmedFindings numbered (keptFindings write numbered (numbered.length - 1)))
  else write numbered

/-- `buildPacketNarrative` -/
def buildPacketNarrative (input : PacketNarrativeInput) : Except Text Text := do
  let checked ← checkInput input
  let narrative := letter input checked
  if maxNarrativeLength < utf16Length narrative then
    .error ("narrative is ".toList ++ decimal (utf16Length narrative) ++ " characters, over the ".toList ++
      decimal maxNarrativeLength ++ " the packet record holds — shorten the rationale rather than ".toList ++
      "storing half a packet".toList)
  else .ok narrative

/-- The text `packetContentHash` hashes: the document ids sorted, so that their order is not a difference. -/
def packetContents (decisionId : Text) (fileDocumentIds : List Text) (narrative : Text) : Text :=
  "\x7b\"decisionId\":".toList ++ quote decisionId ++ ",\"fileDocumentIds\":[".toList ++
    [','].intercalate ((fileDocumentIds.mergeSort (textLe · ·)).map quote) ++ "],\"narrative\":".toList ++
    quote narrative ++ "\x7d".toList

end Recouple.Packet
