import Recouple.Core.Numerals
import Recouple.Core.ReconcileStability
import Recouple.Database.Workflow
import Recouple.Lib.Double

/-!
# Which case a document names: `packages/core-domain/src/document-match.ts` (39-430)

| here | there |
| --- | --- |
| `retailerMatchKey` | `retailers.ts` (17-73) |
| `specOf` | `DOCUMENT_MATCH_FIELDS[input.documentType]` |
| `pathMatches`, `printed`, `centsOf` | 198-208, 285, 289 |
| `identifiersOf`, `referencesOf`, `payersOf`, `amountsOf` | the loop over the fields (333-360) |
| `carried`, `exactBasis`, `probableBasis` | the turn of the loop over the cases (372-418) |
| `suggestCasesForDocument` | 326 |

The tables of `toLowerCase` and of `normalize('NFKD')` are parameters. What a field's row holds besides its path and its
value, and a case's `debtorId`, are read by nothing here.
-/

namespace Recouple.Pipeline
open Js FirstSeen

/-! ## Names of retailers -/

/-- `LEGAL_SUFFIXES` -/
def LEGAL_SUFFIXES : List Text :=
  ["inc", "incorporated", "corp", "corporation", "co", "company", "llc", "lc", "llp", "lp", "plc", "ltd", "limited",
    "gmbh", "ag", "nv", "bv", "sa", "srl", "pty", "pte"].map String.toList

/-- The words of a name, last word first, without the legal forms at its end. -/
def withoutSuffixes : List Text → List Text
  | [] => []
  | [word] => [word]
  | last :: words => if last ∈ LEGAL_SUFFIXES then withoutSuffixes words else last :: words

section
variable (T : CaseTables) (nfkd : Text → Text)

def retailerMatchKey (name : Text) : Text :=
  let bare := (nfkd name).filter fun c => !(0x300 ≤ c.toNat && c.toNat ≤ 0x36F)
  let folded := trim (collapse ((T.toLowerCase bare).map fun c => if c.isDigit || ('a' ≤ c && c ≤ 'z') then c else ' '))
  if folded = [] then []
  else [' '].intercalate (withoutSuffixes (folded.splitOn ' ').reverse).reverse

end

/-! ## The schemas -/

inductive DocumentMatchKind
  | claim_id
  | invoice_number
  | po_number
  | bol_number
deriving DecidableEq

def DocumentMatchKind.text : DocumentMatchKind → Text
  | claim_id => "claim_id".toList
  | invoice_number => "invoice_number".toList
  | po_number => "po_number".toList
  | bol_number => "bol_number".toList

inductive DocumentMatchBasisKind
  | identifier (kind : DocumentMatchKind)
  | reference
  | payer
  | amount_cents
deriving DecidableEq

inductive DocumentMatchStrength
  | exact
  | ambiguous
  | probable
deriving DecidableEq

structure DocumentMatchFields where
  identifiers : List (Text × DocumentMatchKind)
  references : List Text
  payerNames : List Text
  amounts : List Text

def NOTHING : DocumentMatchFields := ⟨[], [], [], []⟩

def DOCUMENT_MATCH_FIELDS : List (Text × DocumentMatchFields) := [
  ("deduction_notice".toList, {
    identifiers := [("claim_id".toList, .claim_id), ("invoice_number".toList, .invoice_number),
      ("po_number".toList, .po_number)]
    references := []
    payerNames := ["retailer_name".toList]
    amounts := ["deduction_total".toList, "lines[].deduction_amount".toList] }),
  ("remittance_advice".toList, {
    identifiers := [("lines[].invoice_number".toList, .invoice_number)]
    references := []
    payerNames := ["payer_name".toList]
    amounts := ["lines[].deduction_amount".toList] }),
  ("invoice".toList, {
    identifiers := [("invoice_number".toList, .invoice_number), ("po_number".toList, .po_number)]
    references := []
    payerNames := ["customer_name".toList]
    amounts := ["invoice_total".toList, "lines[].extended_amount".toList] }),
  ("po".toList, {
    identifiers := [("po_number".toList, .po_number)]
    references := []
    payerNames := ["buyer_name".toList]
    amounts := [] }),
  ("bol".toList, {
    identifiers := [("document_number".toList, .bol_number), ("po_number".toList, .po_number)]
    references := []
    payerNames := []
    amounts := [] }),
  ("pod".toList, {
    identifiers := [("document_number".toList, .bol_number), ("po_number".toList, .po_number)]
    references := []
    payerNames := []
    amounts := [] }),
  ("asn".toList, {
    identifiers := [("po_number".toList, .po_number)]
    references := []
    payerNames := []
    amounts := [] }),
  ("correspondence".toList, {
    identifiers := []
    references := ["references[].value".toList]
    payerNames := ["sender_organisation".toList]
    amounts := [] }),
  ("promo_agreement".toList, {
    identifiers := []
    references := []
    payerNames := ["counterparty".toList]
    amounts := ["terms[].amount".toList] }),
  ("price_agreement".toList, {
    identifiers := []
    references := []
    payerNames := ["counterparty".toList]
    amounts := ["terms[].amount".toList] }),
  ("routing_guide".toList, NOTHING),
  ("other".toList, NOTHING)]

/-- The properties every object inherits from `Object.prototype`. -/
def INHERITED : List Text :=
  ["constructor", "__defineGetter__", "__defineSetter__", "hasOwnProperty", "__lookupGetter__", "__lookupSetter__",
    "isPrototypeOf", "propertyIsEnumerable", "toString", "valueOf", "__proto__", "toLocaleString"].map String.toList

/-- What `DOCUMENT_MATCH_FIELDS[type]` is. What an object inherits has no `identifiers`. -/
inductive Spec
  | undefined
  | inherited
  | fields (fields : DocumentMatchFields)

def specOf (documentType : Text) : Spec :=
  match DOCUMENT_MATCH_FIELDS.lookup documentType with
  | some fields => .fields fields
  | none => if documentType ∈ INHERITED then .inherited else .undefined

def documentMatchKindOf : IdentifierKind → Option DocumentMatchKind
  | .claim_id => some .claim_id
  | .portal_claim_id => some .claim_id
  | .invoice_number => some .invoice_number
  | _ => none

/-- `new RegExp(patternSource(pattern))`: `[]` stands for the index of any row, and the rest for itself. -/
def pathMatches : Text → Text → Bool
  | '[' :: ']' :: pattern, '[' :: path =>
    path.takeWhile Char.isDigit ≠ [] &&
      match path.dropWhile Char.isDigit with
      | ']' :: path => pathMatches pattern path
      | _ => false
  | '[' :: ']' :: _, _ => false
  | c :: pattern, d :: path => c = d && pathMatches pattern path
  | [], [] => true
  | _, _ => false

example : pathMatches "lines[].amount".toList "lines[12].amount".toList = true ∧
    pathMatches "lines[].amount".toList "lines[].amount".toList = false := by decide +kernel

/-! ## What is matched -/

structure DocumentMatchField where
  path : Text
  value : Value

/-- The kind of an identifier of a case: a deduction's, or one read off a linked document. -/
inductive CaseIdentifierKind
  | deduction (kind : IdentifierKind)
  | document (kind : DocumentMatchKind)
deriving DecidableEq

structure CaseIdentifier where
  kind : CaseIdentifierKind
  value : Text

structure DocumentMatchCase where
  caseId : Text
  state : CaseState
  amountCents : Cents
  debtorNames : Option (List Text)
  retailerNameAsPrinted : Option Text
  claimId : Option Text
  identifiers : List CaseIdentifier

structure DocumentMatchBasis where
  kind : DocumentMatchBasisKind
  field : Text
  value : Option Text
deriving DecidableEq

structure DocumentCaseSuggestion where
  caseId : Text
  strength : DocumentMatchStrength
  basis : List DocumentMatchBasis
deriving DecidableEq

def caseKind : CaseIdentifierKind → Option DocumentMatchKind
  | .document kind => some kind
  | .deduction kind => documentMatchKindOf kind

def printed : Value → Option Text
  | .str text => if trim text ≠ [] then some text else none
  | _ => none

section
variable (T : CaseTables) (nfkd : Text → Text)

def centsOf : Value → Option Cents
  | .str text => (parseMoneyToCents T text).toOption
  | _ => none

/-- An identifier the document prints, with its key. -/
structure Printed where
  key : Text
  field : Text
  value : Text

/-- What a field prints, where it has a key. -/
def printedKey (field : DocumentMatchField) : Option Printed := do
  let value ← printed field.value
  let key := identifierMatchKey T value
  if key ≠ [] then some ⟨key, field.path, value⟩ else none

def identifiersOf (spec : DocumentMatchFields) (fields : List DocumentMatchField) : List (DocumentMatchKind × Printed) :=
  fields.flatMap fun field => (spec.identifiers.filter fun entry => pathMatches entry.1 field.path).filterMap fun entry =>
    (printedKey T field).map (entry.2, ·)

/-- The fields at one of the paths. -/
def fieldsAt (paths : List Text) (fields : List DocumentMatchField) : List DocumentMatchField :=
  fields.filter fun field => paths.any fun path => pathMatches path field.path

def referencesOf (spec : DocumentMatchFields) (fields : List DocumentMatchField) : List Printed :=
  (fieldsAt spec.references fields).filterMap (printedKey T)

/-- Keys with the fields they are read from. -/
def payersOf (spec : DocumentMatchFields) (fields : List DocumentMatchField) : List (Text × Text) :=
  (fieldsAt spec.payerNames fields).filterMap fun field => do
    let key := retailerMatchKey T nfkd (← printed field.value)
    if key ≠ [] then some (key, field.path) else none

/-- Amounts with the fields they are read from. -/
def amountsOf (spec : DocumentMatchFields) (fields : List DocumentMatchField) : List (Cents × Text) :=
  (fieldsAt spec.amounts fields).filterMap fun field => (centsOf T field.value).map (·, field.path)

/-- The names a case carries, each with its kind: what the map `carried` holds. -/
def carried (candidate : DocumentMatchCase) : List (DocumentMatchKind × Text) :=
  let named := (candidate.claimId.map fun claimId => (DocumentMatchKind.claim_id, claimId)).toList ++
    candidate.identifiers.filterMap fun known => (caseKind known.kind).map (·, known.value)
  (named.map fun entry => (entry.1, identifierMatchKey T entry.2)).filter (·.2 ≠ [])

/-- The document's identifiers that the case carries, each kind and key once. -/
def exactBasis (identifiers : List (DocumentMatchKind × Printed)) (candidate : DocumentMatchCase) :
    List DocumentMatchBasis :=
  let named := identifiers.filter fun named => (named.1, named.2.key) ∈ carried T candidate
  (firstBy (fun named => named.1.text ++ '\x00' :: named.2.key) named).map fun named =>
    ⟨.identifier named.1, named.2.field, some named.2.value⟩

/-- The keys of the debtor's names and of the name printed on the case. -/
def caseNames (candidate : DocumentMatchCase) : List Text :=
  ((candidate.debtorNames.getD [] ++ [candidate.retailerNameAsPrinted.getD []]).map (retailerMatchKey T nfkd)).filter
    (· ≠ [])

/-- What is read off the document. -/
structure DocumentNames where
  identifiers : List (DocumentMatchKind × Printed)
  references : List Printed
  payers : List (Text × Text)
  amounts : List (Cents × Text)

def namesOf (spec : DocumentMatchFields) (fields : List DocumentMatchField) : DocumentNames :=
  ⟨identifiersOf T spec fields, referencesOf T spec fields, payersOf T nfkd spec fields, amountsOf T spec fields⟩

def probableBasis (names : DocumentNames) (candidate : DocumentMatchCase) : List DocumentMatchBasis :=
  let reference := names.references.find? fun named => named.key ∈ (carried T candidate).map (·.2)
  let payer := names.payers.find? fun named => named.1 ∈ caseNames T nfkd candidate
  let amount := names.amounts.find? fun named => named.1 = candidate.amountCents
  (reference.map fun named => ⟨.reference, named.field, some named.value⟩).toList ++
    match payer, amount with
    | some payer, some amount => [⟨.payer, payer.2, none⟩, ⟨.amount_cents, amount.2, none⟩]
    | _, _ => []

/-- `b.basis.length - a.basis.length || …` -/
def byBasis (a b : Text × List DocumentMatchBasis) : Int :=
  Books.orElse ((b.2.length : Int) - a.2.length) (Books.compareText a.1 b.1)

def ranked (rows : List (Text × List DocumentMatchBasis)) : List (Text × List DocumentMatchBasis) :=
  rows.insertionSort fun a b => byBasis a b ≤ 0

def suggestionsOf (names : DocumentNames) (cases : List DocumentMatchCase) : List DocumentCaseSuggestion :=
  let open_ := firstBy (·.caseId) (cases.filter fun candidate => !Database.Workflow.isClosed candidate.state)
  let exact := (open_.map fun candidate => (candidate.caseId, exactBasis T names.identifiers candidate)).filter (·.2 ≠ [])
  let probable := ((open_.filter fun candidate => exactBasis T names.identifiers candidate = []).map fun candidate =>
    (candidate.caseId, probableBasis T nfkd names candidate)).filter (·.2 ≠ [])
  (ranked exact).map (fun row => ⟨row.1, if exact.length = 1 then .exact else .ambiguous, row.2⟩) ++
    (ranked probable).map fun row => ⟨row.1, .probable, row.2⟩

/-- The error is a `TypeError`: what is inherited has no `identifiers` to go through. -/
def suggestCasesForDocument (documentType : Text) (documentFields : List DocumentMatchField)
    (cases : List DocumentMatchCase) : Except Text (List DocumentCaseSuggestion) :=
  match specOf documentType with
  | .undefined => .ok []
  | .inherited =>
    if documentFields ≠ [] then .error "spec.identifiers is not iterable".toList
    else .ok (suggestionsOf T nfkd (namesOf T nfkd NOTHING []) cases)
  | .fields spec => .ok (suggestionsOf T nfkd (namesOf T nfkd spec documentFields) cases)

end

end Recouple.Pipeline
