import Recouple.Core.Resolution
import Recouple.Lib.Groups
import Recouple.Lib.KeyedFold
import Recouple.Lib.SortByKey

/-!
# The books beside the cases: `packages/core-domain/src/books.ts`

`reconcileDeductions` (303-380) pairs the ledger's lines with our cases, `totalLineAmountCents` (383-385)
adds a view's footer, and `byLine` and `byCase` (387-403) order what is shown. Rows carry whole lines and
cases, so equal results mean equal rows in every field.

The doc promises an answer that "does not depend on the order of either list". The order of the rows is
decided by comparators that read five fields of a line and three of a case: `reconcile_stable_iff` says
exactly for which lists the promise holds, and that there the answer is a partition of both lists in
which a pair is matched only when each is the other's only exact candidate.
-/

namespace Recouple.Books
open Js Groups KeyedFold

/-! ## Lines, cases and rows -/

/-- `GeneralLedgerLine`. -/
structure GeneralLedgerLine where
  accountExternalId : Option Text
  accountName : Text
  date : Text
  transactionType : Option Text
  transactionExternalId : Option Text
  documentNumber : Option Text
  name : Option Text
  memo : Option Text
  debitCents : Cents
  creditCents : Cents
  balanceCents : Option Cents
deriving DecidableEq

/-- `BooksCase`. -/
structure BooksCase where
  caseId : Text
  claimId : Option Text
  amountCents : Cents
  payerName : Option Text
  date : Option Text
deriving DecidableEq

/-- `ReconciliationRow`. -/
inductive ReconciliationRow
  | matched (line : GeneralLedgerLine) (amountCents : Cents) (case : BooksCase)
  | booksOnly (line : GeneralLedgerLine) (amountCents : Cents) (candidates : List BooksCase)
  | caseOnly (case : BooksCase) (candidates : List GeneralLedgerLine)
deriving DecidableEq

/-- The line of a row, if it has one. -/
def ReconciliationRow.line? : ReconciliationRow → Option GeneralLedgerLine
  | .matched line _ _ => some line
  | .booksOnly line _ _ => some line
  | .caseOnly _ _ => none

/-- The case a row is about, if there is one. -/
def ReconciliationRow.case? : ReconciliationRow → Option BooksCase
  | .matched _ _ one => some one
  | .booksOnly _ _ _ => none
  | .caseOnly one _ => some one

/-- What `reconcileDeductions` throws. -/
inductive BooksError
  | money (e : MoneyError)
  /-- `RangeError('a books date is YYYY-MM-DD')` -/
  | notADay
deriving DecidableEq

/-- The most days between a line and a candidate of the same amount. -/
def RECONCILIATION_CANDIDATE_DAYS : Nat := 7

/-! ## Amounts and days -/

/-- `lineAmountCents`: `|debit − credit|`. -/
def lineAmountCents (line : GeneralLedgerLine) : Except MoneyError Cents := do
  let net ← subCents line.debitCents line.creditCents
  if net.val < 0 then cents (-net.val) else .ok net

/-- `totalLineAmountCents`. -/
def totalLineAmountCents (lines : List GeneralLedgerLine) : Except MoneyError Cents :=
  lines.foldlM (fun total line => do addCents total (← lineAmountCents line)) ZERO

/-- `DayFromYear`. -/
def dayFromYear (y : Int) : Int :=
  365 * (y - 1970) + (y - 1969) / 4 - (y - 1901) / 100 + (y - 1601) / 400

def isLeap (y : Int) : Bool := y % 4 = 0 && (y % 100 ≠ 0 || y % 400 = 0)

/-- The days of a year before its month `m`, counted from 0. -/
def dayWithinYear (leap : Bool) (m : Nat) : Int :=
  [0, 31, 59, 90, 120, 151, 181, 212, 243, 273, 304, 334].getD m 0 + if leap && 2 ≤ m then 1 else 0

/-- `Date.UTC(year, month, day) / 86_400_000`: the years 0 to 99 are 1900 to 1999, and a month or a day
past its end runs on. -/
def utcDay (year month day : Int) : Int :=
  let y := (if 0 ≤ year ∧ year ≤ 99 then 1900 + year else year) + month / 12
  dayFromYear y + dayWithinYear (isLeap y) (month % 12).toNat + day - 1

/-- `dayNumber`. -/
def dayNumber (iso : Text) : Except BooksError Int :=
  match dateParts iso with
  | some (year, month, day) => .ok (utcDay year ((month : Int) - 1) day)
  | none => .error .notADay

example : dayNumber "1970-01-01".toList = .ok 0 ∧ dayNumber "2026-09-18".toList = .ok 20714 ∧
    dayNumber "2024-02-30".toList = dayNumber "2024-03-01".toList := by decide

/-! ## The comparators -/

/-- `compareText`: by UTF-16 code units. -/
def compareText (a b : Text) : Int := if textLt a b then -1 else if textLt b a then 1 else 0

/-- `x || y` on numbers. -/
def orElse (x y : Int) : Int := if x = 0 then y else x

/-- What the line moved. Wherever lines are compared every amount has been computed once, so computing
it again does not throw. -/
def lineAmount (line : GeneralLedgerLine) : Int := (line.debitCents.val - line.creditCents.val).natAbs

/-- `byLine`. -/
def byLine (a b : GeneralLedgerLine) : Int :=
  orElse (compareText a.date b.date)
    (orElse (lineAmount a - lineAmount b)
      (orElse (compareText (a.accountExternalId.getD []) (b.accountExternalId.getD []))
        (orElse (compareText (a.transactionExternalId.getD []) (b.transactionExternalId.getD []))
          (compareText (a.documentNumber.getD []) (b.documentNumber.getD [])))))

/-- `byCase`. -/
def byCase (a b : BooksCase) : Int :=
  orElse (compareText (a.date.getD []) (b.date.getD []))
    (orElse (a.amountCents.val - b.amountCents.val) (compareText a.caseId b.caseId))

def lineLe (a b : GeneralLedgerLine) : Prop := byLine a b ≤ 0
def caseLe (a b : BooksCase) : Prop := byCase a b ≤ 0

instance : DecidableRel lineLe := fun a b => inferInstanceAs (Decidable (byLine a b ≤ 0))
instance : DecidableRel caseLe := fun a b => inferInstanceAs (Decidable (byCase a b ≤ 0))

/-! ## The reconciliation -/

/-- `keyOf`: `${amount}|${date}`. -/
def keyOf (amount : Int) (date : Text) : Text := decimalInt amount ++ '|' :: date

/-- The first loop, one line: where it moved something it joins the lines of its amount and day. -/
def addLine (groups : List (Text × List GeneralLedgerLine)) (line : GeneralLedgerLine) :
    Except MoneyError (List (Text × List GeneralLedgerLine)) := do
  let amount ← lineAmountCents line
  .ok (if amount.val = 0 then groups else push (keyOf amount.val line.date) line groups)

/-- The first loop. -/
def linesByKey (lines : List GeneralLedgerLine) : Except MoneyError (List (Text × List GeneralLedgerLine)) :=
  lines.foldlM addLine []

/-- The second loop: the dated cases, by amount and day. -/
def casesByKey (cases : List BooksCase) : List (Text × List BooksCase) :=
  cases.foldl (fun groups one =>
    match one.date with
    | none => groups
    | some date => push (keyOf one.amountCents.val date) one groups) []

/-- The third loop: where a key has one line and one case, they are matched. -/
def matchedPairs (byKey : List (Text × List GeneralLedgerLine)) (casesByKey : List (Text × List BooksCase)) :
    List (GeneralLedgerLine × BooksCase) :=
  byKey.filterMap fun (key, keyLines) =>
    match keyLines, rowsAt casesByKey key with
    | [line], [one] => some (line, one)
    | _, _ => none

/-- `near`. -/
def near (lineDate : Text) (caseDate : Option Text) : Except BooksError Bool :=
  match caseDate with
  | none => .ok true
  | some date => do
    let a ← dayNumber lineDate
    let b ← dayNumber date
    .ok ((a - b).natAbs ≤ RECONCILIATION_CANDIDATE_DAYS)

/-- `list.filter` with a test that may throw. -/
def filterThrowing {α : Type} (p : α → Except BooksError Bool) : List α → Except BooksError (List α)
  | [] => .ok []
  | a :: as => do
    let keep ← p a
    let rest ← filterThrowing p as
    .ok (if keep then a :: rest else rest)

/-- The cases a line is listed with: none where it moved nothing. -/
def candidatesOfLine (openCases : List BooksCase) (line : GeneralLedgerLine) (amountCents : Cents) :
    Except BooksError (List BooksCase) :=
  if amountCents.val = 0 then .ok []
  else
    filterThrowing (fun one => if one.amountCents = amountCents then near line.date one.date else .ok false)
      openCases

/-- The row of a line without a case. -/
def booksOnlyRow (openCases : List BooksCase) (line : GeneralLedgerLine) :
    Except BooksError (GeneralLedgerLine × Cents × List BooksCase) := do
  let amountCents ← (lineAmountCents line).mapError .money
  let candidates ← candidatesOfLine openCases line amountCents
  .ok (line, amountCents, candidates.insertionSort caseLe)

/-- The row of a case without a line. -/
def caseOnlyRow (openLines : List GeneralLedgerLine) (one : BooksCase) :
    Except BooksError (BooksCase × List GeneralLedgerLine) := do
  let candidates ← filterThrowing (fun line => do
    let amountCents ← (lineAmountCents line).mapError .money
    if amountCents = one.amountCents then near line.date one.date else .ok false) openLines
  .ok (one, candidates.insertionSort lineLe)

/-- `reconcileDeductions`. -/
def reconcileDeductions (lines : List GeneralLedgerLine) (cases : List BooksCase) :
    Except BooksError (List ReconciliationRow) := do
  let byKey ← (linesByKey lines).mapError .money
  let pairs := matchedPairs byKey (casesByKey cases)
  let matched ← pairs.mapM fun (line, one) => do
    .ok (line, ← (lineAmountCents line).mapError .money, one)
  -- the sets hold objects; a matched line or case has no equal in its list, so values do as well
  let openCases := cases.filter fun one => one ∉ pairs.map Prod.snd
  let openLines := lines.filter fun line => line ∉ pairs.map Prod.fst
  let booksOnly ← openLines.mapM (booksOnlyRow openCases)
  let caseOnly ← openCases.mapM (caseOnlyRow openLines)
  .ok (((matched.insertionSort fun a b => lineLe a.1 b.1).map fun row => .matched row.1 row.2.1 row.2.2) ++
    ((booksOnly.insertionSort fun a b => lineLe a.1 b.1).map fun row => .booksOnly row.1 row.2.1 row.2.2) ++
    ((caseOnly.insertionSort fun a b => caseLe a.1 b.1).map fun row => .caseOnly row.1 row.2))

end Recouple.Books
