import Recouple.Core.Money
import Recouple.Lib.KeyedFold

/-!
# Draft journal entries: `packages/core-domain/src/journal.ts`

`draftEntries` (110-168): what a case implies for the books, stage by stage. `Cents` are safe integers
already, so the source's own `Number.isSafeInteger` never refuses one. The accounts a stage posts to and
the memo it carries are part of the entry.
-/

namespace Recouple.Journal
open Js KeyedFold

inductive ReasonFamily
  | shortage | pricing | compliance | duplicate | returns | promotion | freight | quality | post_audit | other
deriving DecidableEq

inductive JournalStage
  | found | recovered | written_off
deriving DecidableEq

def JournalStage.text : JournalStage → Text
  | found => "found"
  | recovered => "recovered"
  | written_off => "written_off"

inductive AccountRole
  | accounts_receivable | deductions_receivable | cash | writeoff_expense
deriving DecidableEq

structure JournalLine where
  account : Text
  role : AccountRole
  debit : Cents
  credit : Cents
  memo : Text
deriving DecidableEq

structure DraftEntry where
  stage : JournalStage
  lines : List JournalLine
  tag : Option ReasonFamily
deriving DecidableEq

structure AccountMap where
  accountsReceivable : Text
  deductionsReceivable : Text
  cash : Text
  writeoffByFamily : ReasonFamily → Text
  unclassifiedWriteoff : Text

def DEFAULT_ACCOUNT_MAP : AccountMap where
  accountsReceivable := "Accounts Receivable"
  deductionsReceivable := "Deductions Receivable"
  cash := "Undeposited Funds"
  writeoffByFamily
    | .promotion => "Trade Promotion Expense"
    | .freight => "Freight Deductions Expense"
    | .shortage => "Shortage Deductions Expense"
    | .pricing => "Pricing Deductions Expense"
    | .compliance => "Compliance Fines Expense"
    | .returns => "Returns & Allowances"
    | .quality => "Quality Deductions Expense"
    | .duplicate | .post_audit | .other => "Deductions Write-off Expense"
  unclassifiedWriteoff := "Deductions Write-off Expense (unclassified)"

/-- `FAMILY_WORDS`. -/
def familyWords : ReasonFamily → Text
  | .shortage => "Shortage"
  | .pricing => "Pricing"
  | .compliance => "Compliance fine"
  | .duplicate => "Duplicate deduction"
  | .returns => "Returns"
  | .promotion => "Trade promotion"
  | .freight => "Freight"
  | .quality => "Quality"
  | .post_audit => "Post-audit claim"
  | .other => "Other deduction"

/-- What the journal functions throw. -/
inductive JournalError
  /-- `JournalInputError` -/
  | input (message : Text)
  | money (e : MoneyError)
deriving DecidableEq

def writeoffAccountFor (family : Option ReasonFamily) (map : AccountMap) : Text :=
  match family with
  | none => map.unclassifiedWriteoff
  | some family => map.writeoffByFamily family

def isBalanced (entry : DraftEntry) : Except MoneyError Bool := do
  let debits ← sumCents (entry.lines.map (·.debit))
  let credits ← sumCents (entry.lines.map (·.credit))
  .ok (debits = credits)

def pair (stage : JournalStage) (amount : Cents) (debit credit : Text × AccountRole) (memo : Text)
    (tag : Option ReasonFamily) : DraftEntry where
  stage := stage
  lines := [⟨debit.1, debit.2, amount, ZERO, memo⟩, ⟨credit.1, credit.2, ZERO, amount, memo⟩]
  tag := tag

inductive Outcome
  | won | partially | lost | declined
deriving DecidableEq

def Outcome.text : Outcome → Text
  | won => "won"
  | partially => "partial"
  | lost => "lost"
  | declined => "declined"

/-- The argument of `draftEntries`. -/
structure DraftInput where
  amountCents : Cents
  recoveredCents : Option Cents
  outcome : Option Outcome
  family : Option ReasonFamily
  printedReasonCode : Option Text
  map : Option AccountMap

/-- `${value}` -/
def printed (value : Cents) : Text := decimalInt value.val

/-- The first of the five refusals that applies. -/
def draftRefusal (input : DraftInput) : Option Text :=
  let a := input.amountCents
  let rIn := input.recoveredCents
  if a.val ≤ 0 then
    some ("the deducted amount must be positive integer cents, got ".toList ++ printed a)
  else if rIn.any (·.val < 0) then
    some ("the recovered amount must be non-negative integer cents, got ".toList ++ (rIn.map printed).getD [])
  else if rIn.any (a.val < ·.val) then
    some ("recovered ".toList ++ (rIn.map printed).getD [] ++ " is more than the ".toList ++ printed a ++
      " deducted".toList)
  else if (input.outcome = some .lost ∨ input.outcome = some .declined) ∧ rIn.any (·.val ≠ 0) then
    some ("a ".toList ++ (input.outcome.map Outcome.text).getD [] ++ " case recovers nothing, got ".toList ++
      (rIn.map printed).getD [])
  else if input.outcome = some .won ∧ rIn ≠ some a then
    some ("a won case recovers the whole ".toList ++ printed a ++ ", got ".toList ++
      (rIn.map printed).getD "nothing".toList)
  else none

/-- The memo of the `found` entry. -/
def foundMemo (input : DraftInput) : Text :=
  match input.family, input.printedReasonCode with
  | some family, _ => familyWords family
  | none, some code => "Payer reason as printed: ".toList ++ code
  | none, none => "Reason not chosen yet"

def draftEntries (input : DraftInput) : Except JournalError (List DraftEntry) :=
  match draftRefusal input with
  | some message => .error (.input message)
  | none => do
    let map := input.map.getD DEFAULT_ACCOUNT_MAP
    let a := input.amountCents
    let r := input.recoveredCents.getD ZERO
    let dr := (map.deductionsReceivable, AccountRole.deductions_receivable)
    let rest ← (subCents a r).mapError .money
    .ok (pair .found a dr (map.accountsReceivable, .accounts_receivable) (foundMemo input) input.family ::
      ((if 0 < r.val then
          [pair .recovered r (map.cash, .cash) dr "Recovered from the payer" input.family]
        else []) ++
      (if input.outcome.isSome ∧ 0 < rest.val then
          [pair .written_off rest (writeoffAccountFor input.family map, .writeoff_expense) dr "Not recovered"
            input.family]
        else [])))

end Recouple.Journal
