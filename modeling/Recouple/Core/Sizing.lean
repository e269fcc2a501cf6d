import Recouple.Core.Ledger
import Recouple.Core.Reconciliation
import Recouple.Lib.Rounding

/-!
# The sizing card: `packages/core-domain/src/sizing.ts` (24-140, 176-341) and `books.ts` (33-52, 174-218)

| here | there |
| --- | --- |
| `looksLikeDeductionsAccount`, `startsAWord` | `books.ts` (201, 212) |
| `sizingStep` | one turn of the loop over the lines (193-237) |
| `byContribution` | the comparator of the contributions (241-244) |
| `balancesOf` | the balances (247-273) |
| `deductionsSizing`, `rateBps` | 176, 306 |

The tables of `toLowerCase` are a parameter.
-/

namespace Recouple.Sizing
open Js

/-! ## Accounts -/

structure LedgerAccount where
  sourceKind : AccountingSourceKind
  externalId : Text
  code : Option Text
  name : Text
  fullyQualifiedName : Text
  accountType : Text
  accountSubType : Option Text
  classification : Option Text
  active : Bool
  currentBalanceCents : Option Cents
deriving DecidableEq

def RECEIVABLE_ACCOUNT_TYPE : Text := "Accounts Receivable".toList

def DEDUCTION_ACCOUNT_SUBTYPES : List Text := ["DiscountsRefundsGiven".toList, "AllowanceForBadDebts".toList]

def DEDUCTION_ACCOUNT_NAME_WORDS : List Text :=
  ["deduction", "chargeback", "charge back", "charge-back", "allowance", "short pay", "short-pay", "shortpay",
    "billback", "bill back", "bill-back", "trade spend", "promo"].map String.toList

/-- `/[a-z0-9]/.test(before)`, where nothing may stand before. -/
def inAWord (before : Option Char) : Bool :=
  match before with
  | some c => ('a' ≤ c && c ≤ 'z') || c.isDigit
  | none => false

/-- The word stands somewhere in the text, and no letter or digit before it. -/
def startsAWordAfter (word : Text) : Option Char → Text → Bool
  | before, [] => word.isEmpty && !inAWord before
  | before, c :: cs => (word.isPrefixOf (c :: cs) && !inAWord before) || startsAWordAfter word (some c) cs

def startsAWord (text word : Text) : Bool := startsAWordAfter word none text

def isReceivable (account : LedgerAccount) : Bool := account.accountType == RECEIVABLE_ACCOUNT_TYPE

section
variable (T : CaseTables)

def looksLikeDeductionsAccount (account : LedgerAccount) : Bool :=
  if (account.accountSubType.map fun subtype => decide (subtype ∈ DEDUCTION_ACCOUNT_SUBTYPES)) = some true then true
  else DEDUCTION_ACCOUNT_NAME_WORDS.any (startsAWord (T.toLowerCase account.fullyQualifiedName))

def isDeductions (account : LedgerAccount) : Bool := !isReceivable account && looksLikeDeductionsAccount T account

end

/-! ## The profit and loss -/

structure ProfitAndLossLine where
  accountExternalId : Option Text
  accountName : Text
  «section» : Text
  amountCents : Cents
deriving DecidableEq

structure LedgerWindow where
  «from» : Text
  «to» : Text
deriving DecidableEq

structure ProfitAndLoss where
  sourceKind : AccountingSourceKind
  window : LedgerWindow
  basis : Option Text
  currency : Option Text
  lines : List ProfitAndLossLine
deriving DecidableEq

def REVENUE_CLASSIFICATION : Text := "Revenue".toList
def EXPENSE_CLASSIFICATION : Text := "Expense".toList
def BALANCE_SHEET_CLASSIFICATIONS : List Text := ["Asset".toList, "Liability".toList]
def SALES_SECTION : Text := "Income".toList
def UNDEPOSITED_FUNDS_SUBTYPE : Text := "UndepositedFunds".toList

/-! ## The card -/

inductive Side
  | revenue
  | expense
deriving DecidableEq

structure SizingContribution where
  account : LedgerAccount
  side : Side
  amountCents : Cents
deriving DecidableEq

structure SizingBalance where
  account : LedgerAccount
  balanceCents : Option Cents
deriving DecidableEq

inductive UnmatchedReason
  | no_account_id
  | not_in_chart
  | not_revenue_or_expense
deriving DecidableEq

structure UnmatchedLine where
  line : ProfitAndLossLine
  reason : UnmatchedReason
deriving DecidableEq

structure SizingBalances where
  receivable : List SizingBalance
  receivableTotalCents : Option Cents
  undepositedFunds : List SizingBalance
  deductions : List (SizingBalance × Bool)
deriving DecidableEq

structure DeductionsSizing where
  window : LedgerWindow
  basis : Option Text
  currency : Option Text
  grossSalesCents : Cents
  otherIncomeCents : Cents
  revenueDeductionsCents : Cents
  expenseDeductionsCents : Cents
  deductionsCents : Cents
  bps : Option Int
  contributions : List SizingContribution
  unmatchedLines : List UnmatchedLine
  balances : SizingBalances
deriving DecidableEq

inductive SizingError
  | money (e : MoneyError)
  /-- `a rate is taken over a positive whole` -/
  | wholeNotPositive
  /-- `a rate is taken of an amount that is not negative` -/
  | partNegative
deriving DecidableEq

/-- `addCents`, which throws a `MoneyError`. -/
def add (a b : Cents) : Except SizingError Cents := (addCents a b).mapError .money

/-- `abs`: the opposite of a safe integer is one. -/
def abs (amount : Cents) : Cents :=
  if amount.val < 0 then ⟨-amount.val, by have := amount.upper; omega, by have := amount.lower; omega⟩ else amount

/-- `byId.get(id)`: of accounts of one id the last counts. -/
def accountOf (chart : List LedgerAccount) (id : Text) : Option LedgerAccount :=
  chart.reverse.find? fun account => account.externalId = id

def sideOf (account : LedgerAccount) : Option Side :=
  if account.classification = some REVENUE_CLASSIFICATION then some .revenue
  else if account.classification = some EXPENSE_CLASSIFICATION then some .expense
  else none

structure SizingState where
  grossSalesCents : Cents
  otherIncomeCents : Cents
  revenueDeductionsCents : Cents
  expenseDeductionsCents : Cents
  perAccount : List SizingContribution
  unmatchedLines : List UnmatchedLine
deriving DecidableEq

/-- `perAccount.get(id)?.amountCents ?? cents(0)` -/
def amountSeen (perAccount : List SizingContribution) (id : Text) : Cents :=
  ((perAccount.find? fun seen => seen.account.externalId = id).map (·.amountCents)).getD ZERO

/-- `perAccount.set(id, contribution)` -/
def setContribution (new : SizingContribution) : List SizingContribution → List SizingContribution
  | [] => [new]
  | seen :: rest =>
    if seen.account.externalId = new.account.externalId then new :: rest else seen :: setContribution new rest

/-- The total of the account's side. -/
def sideStep (s : SizingState) (side : Side) (amountCents : Cents) : Except SizingError SizingState :=
  match side with
  | .revenue => (add s.revenueDeductionsCents amountCents).map fun c => { s with revenueDeductionsCents := c }
  | .expense => (add s.expenseDeductionsCents amountCents).map fun c => { s with expenseDeductionsCents := c }

/-- A line of an account that looks like deductions. -/
def deductionStep (s : SizingState) (account : LedgerAccount) (side : Side) (amountCents : Cents) :
    Except SizingError SizingState := do
  let s ← sideStep s side amountCents
  let total ← add (amountSeen s.perAccount account.externalId) amountCents
  .ok { s with perAccount := setContribution ⟨account, side, total⟩ s.perAccount }

section
variable (T : CaseTables) (chart : List LedgerAccount)

def sizingStep (s : SizingState) (line : ProfitAndLossLine) : Except SizingError SizingState :=
  let unmatched (reason : UnmatchedReason) : Except SizingError SizingState :=
    .ok { s with unmatchedLines := s.unmatchedLines ++ [⟨line, reason⟩] }
  match line.accountExternalId with
  | none => unmatched .no_account_id
  | some id =>
    match accountOf chart id with
    | none => unmatched .not_in_chart
    | some account =>
      match sideOf account with
      | none => unmatched .not_revenue_or_expense
      | some side =>
        if !isDeductions T account then
          match side with
          | .revenue =>
            if line.«section» = SALES_SECTION then
              (add s.grossSalesCents line.amountCents).map fun c => { s with grossSalesCents := c }
            else (add s.otherIncomeCents line.amountCents).map fun c => { s with otherIncomeCents := c }
          | .expense => .ok s
        else deductionStep s account side line.amountCents

/-- `a.side === b.side ? 0 : a.side === 'revenue' ? -1 : 1` -/
def bySide (a b : Side) : Int := if a = b then 0 else if a = .revenue then -1 else 1

def byContribution (a b : SizingContribution) : Int :=
  Books.orElse (bySide a.side b.side)
    (Books.orElse (Books.compareText a.account.fullyQualifiedName b.account.fullyQualifiedName)
      (Books.compareText a.account.externalId b.account.externalId))

def rateBps (part whole : Cents) : Except SizingError Int :=
  if whole.val ≤ 0 then .error .wholeNotPositive
  else if part.val < 0 then .error .partNegative
  else .ok ((part.val * 10000 * 2 + whole.val).tdiv (whole.val * 2))

/-- `grossSalesCents > 0 ? rateBps(deductionsCents, grossSalesCents) : null` -/
def bpsOf (deductionsCents grossSalesCents : Cents) : Except SizingError (Option Int) :=
  if 0 < grossSalesCents.val then (rateBps deductionsCents grossSalesCents).map some else .ok none

/-- The receivables' balances added up, where every one has a balance. -/
def receivableTotal (receivable : List SizingBalance) : Except SizingError (Option Cents) :=
  if receivable.all fun one => one.balanceCents.isSome then
    (receivable.foldlM (fun total one => add total (one.balanceCents.getD ZERO)) ZERO).map some
  else .ok none

def balanceOf (account : LedgerAccount) : SizingBalance := ⟨account, account.currentBalanceCents⟩

def balancesOf (postingAccountIds : List Text) : Except SizingError SizingBalances := do
  let receivable := (chart.filter isReceivable).map balanceOf
  let receivableTotalCents ← receivableTotal receivable
  let undepositedFunds :=
    (chart.filter fun account => account.accountSubType = some UNDEPOSITED_FUNDS_SUBTYPE).map balanceOf
  let deductions := chart.filter fun account =>
    !isReceivable account && decide (account.accountSubType ≠ some UNDEPOSITED_FUNDS_SUBTYPE) &&
      (account.classification.map fun c => decide (c ∈ BALANCE_SHEET_CLASSIFICATIONS)) == some true &&
      (decide (account.externalId ∈ postingAccountIds) || looksLikeDeductionsAccount T account)
  .ok {
    receivable
    receivableTotalCents := if receivable = [] then none else receivableTotalCents
    undepositedFunds
    deductions := deductions.map fun account => (balanceOf account, decide (account.externalId ∈ postingAccountIds)) }

def deductionsSizing (pnl : ProfitAndLoss) (postingAccountIds : List Text) : Except SizingError DeductionsSizing := do
  let s ← pnl.lines.foldlM (sizingStep T chart) ⟨ZERO, ZERO, ZERO, ZERO, [], []⟩
  let deductionsCents ← add (abs s.revenueDeductionsCents) (abs s.expenseDeductionsCents)
  let balances ← balancesOf T chart postingAccountIds
  let bps ← bpsOf deductionsCents s.grossSalesCents
  .ok {
    window := pnl.window
    basis := pnl.basis
    currency := pnl.currency
    grossSalesCents := s.grossSalesCents
    otherIncomeCents := s.otherIncomeCents
    revenueDeductionsCents := s.revenueDeductionsCents
    expenseDeductionsCents := s.expenseDeductionsCents
    deductionsCents
    bps
    contributions := s.perAccount.insertionSort fun a b => byContribution a b ≤ 0
    unmatchedLines := s.unmatchedLines
    balances }

end

end Recouple.Sizing
