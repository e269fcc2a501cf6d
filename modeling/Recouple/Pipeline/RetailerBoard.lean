import Recouple.Pipeline.DocumentMatch
import Recouple.Lib.Groups

/-!
# The case list's board: `packages/core-domain/src/retailer-board.ts` (38-248)

| here | there |
| --- | --- |
| `PayerTotals`, `RawPayerGroup`, `PayerGroup` | 41-113 |
| `count`, `money`, `addTotals` | 122-160 |
| `groupKey` | 167 |
| `gather` | the loop over the rows (196-206) |
| `payerGroup` | the loop over the groups (208-233) |
| `byShown` | the comparator (235-241) |
| `foldRetailerBoard`, `retailerBoardTotals` | 187, 246 |

The database hands the board integers (`exactCents`), so a figure is an `Int` and the checks are those on an integer.
A case is of any type.
-/

namespace Recouple.Pipeline.Board
open Js

structure PayerTotals where
  openCases : Int
  closedCases : Int
  declinedCases : Int
  awaitingApprovalCases : Int
  inDisputeCents : Int
  recoveredCents : Int
  recoveredUnrecordedCases : Int
  declinedCents : Int
  atRiskCases : Int
  atRiskCents : Int
  oldestOpenDays : Option Int
  listableCases : Int
deriving DecidableEq

structure PlacedCase (C : Type) where
  position : Int
  value : C
deriving DecidableEq

structure BoardDebtor where
  id : Text
  name : Text
deriving DecidableEq

structure RawPayerGroup (C : Type) where
  debtor : Option BoardDebtor
  printedName : Option Text
  caseCount : Int
  totals : PayerTotals
  cases : List (PlacedCase C)
deriving DecidableEq

inductive PayerGroupKind
  | matched
  | unmatched
  | unknown
deriving DecidableEq

def PayerGroupKind.text : PayerGroupKind → Text
  | matched => "matched".toList
  | unmatched => "unmatched".toList
  | unknown => "unknown".toList

structure PayerGroup (C : Type) where
  kind : PayerGroupKind
  key : Text
  name : Option Text
  debtorId : Option Text
  printedNames : List Text
  totals : PayerTotals
  cases : List C
  moreCases : Int
deriving DecidableEq

/-- Every `RetailerBoardError`, and the `MoneyError`s that pass through. -/
inductive RetailerBoardError
  | notACount (value : Int)
  | countOverflowed
  | notAnAge (days : Int)
  | notALimit (casesPerGroup : Int)
  | twoRows (kind : PayerGroupKind)
  | money (e : MoneyError)
deriving DecidableEq

def RetailerBoardError.message : RetailerBoardError → Text
  | .notACount value => "a count is a non-negative integer, not ".toList ++ decimalInt value
  | .countOverflowed => "a count overflowed".toList
  | .notAnAge days => "an age is whole days, not ".toList ++ decimalInt days
  | .notALimit casesPerGroup =>
    "a board lists a whole number of cases per payer, not ".toList ++ decimalInt casesPerGroup
  | .twoRows kind => "two rows for one payer group (".toList ++ kind.text ++ ")".toList
  | .money e => e.message

/-! ## Sums -/

/-- `total += value`, on doubles. -/
def countStep (total value : Int) : Except RetailerBoardError Int :=
  if InRange value ∧ 0 ≤ value then .ok (toDoubleInt (total + value)) else .error (.notACount value)

def count (values : List Int) : Except RetailerBoardError Int := do
  let total ← values.foldlM countStep 0
  if InRange total then .ok total else .error .countOverflowed

def money (values : List Int) : Except RetailerBoardError Int :=
  (values.mapM cents >>= sumCents >>= fun total => .ok total.val).mapError .money

def age (days : Int) : Except RetailerBoardError Unit :=
  if InRange days then .ok () else .error (.notAnAge days)

def addTotals (rows : List PayerTotals) : Except RetailerBoardError PayerTotals := do
  let ages := rows.filterMap (·.oldestOpenDays)
  ages.forM age
  let openCases ← count (rows.map (·.openCases))
  let closedCases ← count (rows.map (·.closedCases))
  let declinedCases ← count (rows.map (·.declinedCases))
  let awaitingApprovalCases ← count (rows.map (·.awaitingApprovalCases))
  let inDisputeCents ← money (rows.map (·.inDisputeCents))
  let recoveredCents ← money (rows.map (·.recoveredCents))
  let recoveredUnrecordedCases ← count (rows.map (·.recoveredUnrecordedCases))
  let declinedCents ← money (rows.map (·.declinedCents))
  let atRiskCases ← count (rows.map (·.atRiskCases))
  let atRiskCents ← money (rows.map (·.atRiskCents))
  let listableCases ← count (rows.map (·.listableCases))
  .ok {
    openCases, closedCases, declinedCases, awaitingApprovalCases, inDisputeCents, recoveredCents,
    recoveredUnrecordedCases, declinedCents, atRiskCases, atRiskCents, oldestOpenDays := ages.max?, listableCases }

/-! ## Groups -/

section
variable (T : CaseTables) (nfkd : Text → Text) {C : Type}

def groupKey (raw : RawPayerGroup C) : PayerGroupKind × Text :=
  match raw.debtor, raw.printedName with
  | some debtor, _ => (.matched, "debtor:".toList ++ debtor.id)
  | none, none => (.unknown, "unknown".toList)
  | none, some printedName =>
    let folded := retailerMatchKey T nfkd printedName
    (.unmatched, if folded = [] then "printed-exact:".toList ++ printedName else "printed:".toList ++ folded)

/-- One turn of the loop. The kind goes with the key (`groupKey_kind`), so the `Map` keeps both. -/
def gather (gathered : List ((PayerGroupKind × Text) × List (RawPayerGroup C))) (row : RawPayerGroup C) :
    Except RetailerBoardError (List ((PayerGroupKind × Text) × List (RawPayerGroup C))) :=
  let group := groupKey T nfkd row
  if group.2 ∈ gathered.map (·.1.2) ∧ group.1 ≠ .unmatched then .error (.twoRows group.1)
  else .ok (Groups.push group row gathered)

/-- `b.caseCount - a.caseCount || byText(a.printedName ?? '', b.printedName ?? '')` -/
def bySpelling (a b : RawPayerGroup C) : Int :=
  Books.orElse (b.caseCount - a.caseCount) (Books.compareText (a.printedName.getD []) (b.printedName.getD []))

def spellings (members : List (RawPayerGroup C)) : List (RawPayerGroup C) :=
  members.insertionSort fun a b => bySpelling a b ≤ 0

def placed (members : List (RawPayerGroup C)) : List (PlacedCase C) :=
  (members.flatMap (·.cases)).insertionSort fun a b => a.position - b.position ≤ 0

/-- `first.debtor?.name ?? first.printedName` -/
def nameOf (first : RawPayerGroup C) : Option Text := (first.debtor.map (·.name)).or first.printedName

def payerGroup (limit : Nat) (group : (PayerGroupKind × Text) × List (RawPayerGroup C)) :
    Except RetailerBoardError (PayerGroup C) := do
  let first := (spellings group.2).head?
  let totals ← addTotals (group.2.map (·.totals))
  let cases := ((placed group.2).take limit).map (·.value)
  .ok {
    kind := group.1.1
    key := group.1.2
    name := first.bind nameOf
    debtorId := first.bind fun row => row.debtor.map (·.id)
    printedNames := if group.1.1 = .unmatched then (spellings group.2).map fun row => row.printedName.getD [] else []
    totals, cases
    moreCases := max 0 (totals.listableCases - cases.length) }

def KIND_ORDER : PayerGroupKind → Int
  | .matched => 0
  | .unmatched => 1
  | .unknown => 2

/-- The order the groups are shown in. -/
def byShown (a b : PayerGroup C) : Int :=
  Books.orElse (KIND_ORDER a.kind - KIND_ORDER b.kind)
    (Books.orElse (b.totals.inDisputeCents - a.totals.inDisputeCents)
      (Books.orElse (Books.compareText (a.name.getD []) (b.name.getD [])) (Books.compareText a.key b.key)))

def foldRetailerBoard (rows : List (RawPayerGroup C)) (casesPerGroup : Int) :
    Except RetailerBoardError (List (PayerGroup C)) := do
  if casesPerGroup < 0 then throw (.notALimit casesPerGroup)
  let gathered ← rows.foldlM (gather T nfkd) []
  let groups ← gathered.mapM (payerGroup casesPerGroup.toNat)
  return groups.insertionSort fun a b => byShown a b ≤ 0

def retailerBoardTotals (groups : List (PayerGroup C)) : Except RetailerBoardError PayerTotals :=
  addTotals (groups.map (·.totals))

end

end Recouple.Pipeline.Board
