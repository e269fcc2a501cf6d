import Mathlib
import Recouple.Core.Identity
import Recouple.Core.Money
import Recouple.Lib.FirstSeen

/-!
# Identity resolution: `packages/core-domain/src/identity.ts` (24-300)

Whether an arrival is a deduction we already have. Only an exact match resolves by itself. Ids, which the
source draws at random, are numbers.
-/

namespace Recouple
open Js FirstSeen

/-- A `deductionId`. -/
abbrev CaseId := Nat

inductive IdentifierKind
  | claim_id
  | invoice_number
  | credit_memo_id
  | edi_812_reference
  | portal_claim_id
  | ledger_invoice_id
deriving DecidableEq

def IdentifierKind.text : IdentifierKind → Text
  | claim_id => "claim_id"
  | invoice_number => "invoice_number"
  | credit_memo_id => "credit_memo_id"
  | edi_812_reference => "edi_812_reference"
  | portal_claim_id => "portal_claim_id"
  | ledger_invoice_id => "ledger_invoice_id"

structure ArrivedIdentifier where
  kind : IdentifierKind
  identifier : Text
deriving DecidableEq

structure KnownIdentifier where
  deductionId : CaseId
  source : Text
  kind : IdentifierKind
  identifier : Text
deriving DecidableEq

structure ArrivalIdentity where
  identifiers : List ArrivedIdentifier
  amountCents : Option Cents
  invoiceNumber : Option Text
  deductionDate : Option Text
  debtorId : Option Nat

structure KnownDeduction where
  deductionId : CaseId
  amountCents : Cents
  invoiceNumber : Option Text
  deductionDate : Option Text
  debtorId : Option Nat

inductive IdentityResolution
  | exact (deductionId : CaseId) (matchedOn : KnownIdentifier)
  | probable (deductionId : CaseId) (basis : List Text)
  | ambiguous (deductionIds : List CaseId) (basis : List Text)
  | none
deriving DecidableEq

/-- `DEFAULT_DATE_TOLERANCE_DAYS`. -/
def DEFAULT_DATE_TOLERANCE_DAYS : Int := 7

/-- `IdentityError`. -/
def IdentityError (tolerance : Int) : Text :=
  "dateToleranceDays must be a non-negative integer, got ".toList ++ decimalInt tolerance

/-! ## Days -/

/-- `\d{n}`: the number that `n` digits at the front spell, and what follows them. -/
def digits (n : Nat) (text : Text) : Option (Nat × Text) :=
  let front := text.take n
  if front.length = n ∧ front.all Char.isDigit then some (Nat.ofDigitChars 10 front 0, text.drop n) else none

/-- `/^(\d{4})-(\d{2})-(\d{2})$/`. -/
def dateParts (text : Text) : Option (Nat × Nat × Nat) := do
  let (year, text) ← digits 4 text
  let (month, text) ← if text.head? = some '-' then digits 2 text.tail else none
  let (day, text) ← if text.head? = some '-' then digits 2 text.tail else none
  if text = [] then some (year, month, day) else none

def isLeap (year : Nat) : Bool := year % 4 = 0 && (year % 100 ≠ 0 || year % 400 = 0)

def daysInMonth (year month : Nat) : Nat :=
  if month = 2 then if isLeap year then 29 else 28
  else if month = 4 ∨ month = 6 ∨ month = 9 ∨ month = 11 then 30 else 31

/-- Days from the first of year 0 to this day. -/
def dayNumber (year month day : Nat) : Nat :=
  365 * year + (year + 3) / 4 - (year + 99) / 100 + (year + 399) / 400 +
    ((List.range' 1 (month - 1)).map (daysInMonth year)).sum + day

/-- `isoDay`: a real day, or nothing. `Date.UTC` reads the years before 100 as of the last century, so none
of those round-trips. -/
def isoDay (text : Text) : Option Nat :=
  (dateParts text).bind fun (year, month, day) =>
    if 100 ≤ year ∧ 1 ≤ month ∧ month ≤ 12 ∧ 1 ≤ day ∧ day ≤ daysInMonth year month then
      some (dayNumber year month day)
    else none

example : isoDay "2026-02-30" = none ∧ isoDay "0099-01-01" = none := by decide

example : (isoDay "2024-03-01").map (· - (isoDay "2024-02-28").getD 0) = some 2 := by decide

/-! ## The matcher -/

/-- `PROBABLE_BASIS_ORDER`. -/
def PROBABLE_BASIS_ORDER : List Text := ["invoice_number", "amount_cents", "deduction_date", "debtor_id"]

section
variable (T : CaseTables)

/-- `probableBasis`. -/
def probableBasis (arrival : ArrivalIdentity) (candidate : KnownDeduction) (toleranceDays : Int) :
    Option (List Text) := do
  let arrivalInvoice ← arrival.invoiceNumber
  let candidateInvoice ← candidate.invoiceNumber
  guard (identifierMatchKey T arrivalInvoice ≠ [])
  guard (identifierMatchKey T arrivalInvoice = identifierMatchKey T candidateInvoice)
  let amount ← arrival.amountCents
  guard (amount = candidate.amountCents)
  let arrivalDay ← arrival.deductionDate.bind isoDay
  let candidateDay ← candidate.deductionDate.bind isoDay
  guard (((arrivalDay : Int) - candidateDay).natAbs ≤ toleranceDays)
  match arrival.debtorId, candidate.debtorId with
  | some a, some c => if a = c then some PROBABLE_BASIS_ORDER else none
  | _, _ => some (PROBABLE_BASIS_ORDER.take 3)

/-- The known identifiers that equal an arrived one of their kind, in the order they are met. -/
def exactMatches (identifiers : List ArrivedIdentifier) (known : List KnownIdentifier) : List KnownIdentifier :=
  identifiers.flatMap fun arrived =>
    let key := identifierMatchKey T arrived.identifier
    if key = [] then []
    else known.filter fun k => k.kind = arrived.kind && identifierMatchKey T k.identifier = key

/-- `resolveIdentity`. -/
def resolveIdentity (arrival : ArrivalIdentity) (knownIdentifiers : List KnownIdentifier)
    (knownDeductions : List KnownDeduction) (dateToleranceDays : Option Int) : Except Text IdentityResolution :=
  let tolerance := dateToleranceDays.getD DEFAULT_DATE_TOLERANCE_DAYS
  if tolerance < 0 then .error (IdentityError tolerance)
  else
    let found := exactMatches T arrival.identifiers knownIdentifiers
    match firstBy (·.deductionId) found with
    | [only] => .ok (.exact only.deductionId only)
    | first :: others =>
      .ok (.ambiguous (((first :: others).map (·.deductionId)).insertionSort (· ≤ ·))
        ((firstSeen (found.map (·.kind.text))).insertionSort textLe))
    | [] =>
      let probable := knownDeductions.filterMap fun candidate =>
        (probableBasis T arrival candidate tolerance).map fun basis => (candidate.deductionId, basis)
      match probable with
      | [] => .ok .none
      | [(deductionId, basis)] => .ok (.probable deductionId basis)
      | several =>
        .ok (.ambiguous ((several.map (·.1)).insertionSort (· ≤ ·))
          (PROBABLE_BASIS_ORDER.filter fun name => several.any fun p => name ∈ p.2))

/-- Only a negative tolerance makes it throw. -/
theorem resolveIdentity_ok {arrival : ArrivalIdentity} {knownIdentifiers : List KnownIdentifier}
    {knownDeductions : List KnownDeduction} {days : Option Int} (hdays : 0 ≤ days.getD DEFAULT_DATE_TOLERANCE_DAYS) :
    ∃ r, resolveIdentity T arrival knownIdentifiers knownDeductions days = .ok r := by
  simp only [resolveIdentity, if_neg (Int.not_lt.2 hdays)]
  split
  · exact ⟨_, rfl⟩
  · exact ⟨_, rfl⟩
  · split
    · exact ⟨_, rfl⟩
    · exact ⟨_, rfl⟩
    · exact ⟨_, rfl⟩

/-- A tolerance of days never makes it throw. -/
theorem resolveIdentity_returns {arrival : ArrivalIdentity} {knownIdentifiers : List KnownIdentifier}
    {knownDeductions : List KnownDeduction} {days : Nat} :
    ∃ r, resolveIdentity T arrival knownIdentifiers knownDeductions (some (days : Int)) = .ok r :=
  resolveIdentity_ok T (Int.natCast_nonneg days)

end

end Recouple
