import Mathlib
import Recouple.Core.Journal

/-!
# The journal lines of a settlement decision: `packages/core-domain/src/settlement-lines.ts`

`settlementLinesFrom` (134-163) puts a draft in the shape a person may edit, `validateSettlementLines`
(211-313) decides whether an edited set may be a decision's, and `diffSettlementLines` (331-355) says what
was edited. The rules the second one states are in `SettlementRules`.
-/

namespace Recouple.Journal
open Js KeyedFold

def SETTLEMENT_MIN_LINES : Nat := 2
def SETTLEMENT_MAX_LINES : Nat := 20
def SETTLEMENT_MEMO_MAX_LENGTH : Nat := 500

structure SettlementLine where
  lineNo : Nat
  accountExternalId : Text
  debitCents : Cents
  creditCents : Cents
  memo : Option Text
deriving DecidableEq

structure StoredSettlementLine extends SettlementLine where
  accountNameAsReported : Text
  accountTypeAsReported : Text
deriving DecidableEq

/-- A `number` a caller hands in: an integer, or anything else (a fraction, `NaN`, an infinity). -/
inductive JsNumber
  | integer (v : Int)
  | other
deriving DecidableEq

structure SettlementLineInput where
  accountExternalId : Text
  debitCents : JsNumber
  creditCents : JsNumber
  memo : Option Text
deriving DecidableEq

structure SettlementChartAccount where
  externalId : Text
  name : Text
  accountType : Text
  active : Bool
deriving DecidableEq

structure SettlementAccountIds where
  arAccountId : Text
  deductionsReceivableAccountId : Text
  writeoffByFamily : ReasonFamily → Text
  unclassifiedWriteoff : Text

structure SettlementAccountPolicy where
  receivableAccountId : Text
  receivableAccountTypes : List Text
  refusedAccountTypes : List Text

inductive SettlementLineProblemCode
  | too_few_lines | too_many_lines | not_integer_cents | both_sides | no_side | account_missing
  | account_unknown | account_inactive | account_type_refused | receivable_changed | memo_too_long
  | memo_control_character | unbalanced | moves_more_than_computed
deriving DecidableEq

structure SettlementLineProblem where
  code : SettlementLineProblemCode
  lineNo : Option Nat
deriving DecidableEq

inductive SettlementLinesVerdict
  | accepted (lines : List StoredSettlementLine)
  | refused (problems : List SettlementLineProblem)
deriving DecidableEq

/-! ## The computed lines -/

def settlementEntryStages (includeFound : Bool) : List JournalStage :=
  if includeFound then [.found, .recovered, .written_off] else [.recovered, .written_off]

def accountFor (role : AccountRole) (family : Option ReasonFamily) (accounts : SettlementAccountIds) : Text :=
  match role with
  | .accounts_receivable | .cash => accounts.arAccountId
  | .deductions_receivable => accounts.deductionsReceivableAccountId
  | .writeoff_expense =>
    match family with
    | none => accounts.unclassifiedWriteoff
    | some family => accounts.writeoffByFamily family

/-- What the loop pushes for one draft line: its account with each side that is positive. -/
def pushed (accounts : SettlementAccountIds) (entry : DraftEntry) (line : JournalLine) : List (Text × Cents × Cents) :=
  let account := accountFor line.role entry.tag accounts
  (if 0 < line.debit.val then [(account, line.debit, ZERO)] else []) ++
    (if 0 < line.credit.val then [(account, ZERO, line.credit)] else [])

def settlementLinesFrom (entries : List DraftEntry) (accounts : SettlementAccountIds) (includeFound : Bool) :
    Except JournalError (List SettlementLine) :=
  let stages := settlementEntryStages includeFound
  let rows := (entries.filter fun entry => entry.stage ∈ stages).flatMap fun entry =>
    entry.lines.flatMap (pushed accounts entry)
  if rows = [] then
    .error (.input ("no draft lines for ".toList ++ List.intercalate ", ".toList (stages.map JournalStage.text)))
  else .ok (rows.mapIdx fun i row => ⟨i + 1, row.1, row.2.1, row.2.2, none⟩)

/-! ## Totals, memos and accounts -/

/-- `settlementTotals`, of lines given by their two amounts. -/
def settlementTotals (lines : List (Int × Int)) : Except MoneyError (Cents × Cents × Bool) := do
  let debits ← lines.mapM fun line => cents line.1
  let debitCents ← sumCents debits
  let credits ← lines.mapM fun line => cents line.2
  let creditCents ← sumCents credits
  .ok (debitCents, creditCents, debitCents = creditCents)

/-- `[\p{Cc}\p{Zl}\p{Zp}]`: the control characters, and the line and paragraph separators. -/
def isControl (c : Char) : Bool :=
  c.toNat < 0x20 || (0x7F ≤ c.toNat && c.toNat ≤ 0x9F) || c.toNat == 0x2028 || c.toNat == 0x2029

/-- `normaliseSettlementMemo`: the memo as it is stored, or the problem with it. -/
def normaliseSettlementMemo (memo : Option Text) : Except SettlementLineProblemCode (Option Text) :=
  match memo with
  | none => .ok none
  | some memo =>
    let trimmed := trim memo
    if trimmed = [] then .ok none
    else if trimmed.any isControl then .error .memo_control_character
    else if SETTLEMENT_MEMO_MAX_LENGTH < utf16Length trimmed then .error .memo_too_long
    else .ok (some trimmed)

/-- `sideKey`. -/
def sideKey (side : Int × Int) : Text :=
  if 0 < side.1 then 'D' :: decimalInt side.1 else 'C' :: decimalInt side.2

/-- `byId.get(id)`: of accounts with one id the last is kept. -/
def accountOf (chart : List SettlementChartAccount) (id : Text) : Option SettlementChartAccount :=
  chart.reverse.find? fun account => account.externalId = id

/-! ## The verdict -/

/-- `Number.isSafeInteger`. -/
def isSafeInteger : JsNumber → Bool
  | .integer v => InRange v
  | .other => false

/-- The number, where it is an integer. It is read only behind `isSafeInteger`. -/
def JsNumber.value : JsNumber → Int
  | .integer v => v
  | .other => 0

/-- What is wrong with the two amounts of a line, if anything. -/
def amountProblem (debit credit : JsNumber) : Option SettlementLineProblemCode :=
  if !isSafeInteger debit || !isSafeInteger credit || debit.value < 0 || credit.value < 0 then
    some .not_integer_cents
  else if 0 < debit.value ∧ 0 < credit.value then some .both_sides
  else if debit.value = 0 ∧ credit.value = 0 then some .no_side
  else none

/-- What is wrong with the account of a line, if anything. -/
def accountProblem (chart : List SettlementChartAccount) (policy : SettlementAccountPolicy) (id : Text) :
    Option SettlementLineProblemCode :=
  if id = [] then some .account_missing
  else
    match accountOf chart id with
    | none => some .account_unknown
    | some account =>
      if !account.active then some .account_inactive
      else if account.accountType ∈ policy.refusedAccountTypes ∨
          (account.accountType ∈ policy.receivableAccountTypes ∧ id ≠ policy.receivableAccountId) ∨
          (id = policy.receivableAccountId ∧ account.accountType ∉ policy.receivableAccountTypes) then
        some .account_type_refused
      else none

/-- What is wrong with the memo of a line, if anything. -/
def memoProblem (memo : Option Text) : Option SettlementLineProblemCode :=
  match normaliseSettlementMemo memo with
  | .ok _ => none
  | .error code => some code

/-- Every problem of one line, in the order they are found. -/
def lineProblems (chart : List SettlementChartAccount) (policy : SettlementAccountPolicy)
    (line : SettlementLineInput) : List SettlementLineProblemCode :=
  (amountProblem line.debitCents line.creditCents).toList ++ (memoProblem line.memo).toList ++
    (accountProblem chart policy (trim line.accountExternalId)).toList

/-- The line as it is stored: where its amounts are one-sided, its account is in the chart and its memo
fits. (`cents` cannot throw on amounts that were found safe.) -/
def storedLine (chart : List SettlementChartAccount) (line : SettlementLineInput) (lineNo : Nat) :
    Option StoredSettlementLine :=
  let id := trim line.accountExternalId
  match amountProblem line.debitCents line.creditCents, if id = [] then none else accountOf chart id,
    normaliseSettlementMemo line.memo, cents line.debitCents.value, cents line.creditCents.value with
  | none, some account, .ok memo, .ok debit, .ok credit =>
    some { lineNo := lineNo, accountExternalId := id, debitCents := debit, creditCents := credit, memo := memo,
           accountNameAsReported := account.name, accountTypeAsReported := account.accountType }
  | _, _, _, _, _ => none

/-- The two amounts of a line. -/
def SettlementLineInput.sides (line : SettlementLineInput) : Int × Int :=
  (line.debitCents.value, line.creditCents.value)

def SettlementLine.sides (line : SettlementLine) : Int × Int := (line.debitCents.val, line.creditCents.val)

/-- `receivable`: the sides on the receivable account, sorted. -/
def receivable (policy : SettlementAccountPolicy) (lines : List (Text × Int × Int)) : List Text :=
  ((lines.filter fun line => trim line.1 = policy.receivableAccountId).map fun line =>
    sideKey line.2).insertionSort textLe

/-- The lines with one side. -/
def usableLines (input : List SettlementLineInput) : List SettlementLineInput :=
  input.filter fun line => decide (0 < line.sides.1) != decide (0 < line.sides.2)

/-- The problems of the two totals. Only the computed totals can throw: the other call is inside a `try`. -/
def sumProblems (computed : List SettlementLine) (usable : List SettlementLineInput) :
    Except MoneyError (List SettlementLineProblemCode) :=
  match settlementTotals (usable.map (·.sides)) with
  | .error _ => .ok [.not_integer_cents]
  | .ok (debitCents, _, balanced) => do
    let totals ← settlementTotals (computed.map (·.sides))
    .ok ((if !balanced then [.unbalanced] else []) ++
      (if totals.1.val < debitCents.val then [.moves_more_than_computed] else []))

/-- The receivable lines, as two multisets of side and cents. -/
def receivableProblems (policy : SettlementAccountPolicy) (computed : List SettlementLine)
    (usable : List SettlementLineInput) : List SettlementLineProblemCode :=
  let mine := receivable policy (usable.map fun line => (line.accountExternalId, line.sides))
  let theirs := receivable policy (computed.map fun line => (line.accountExternalId, line.sides))
  if mine ≠ theirs then [.receivable_changed] else []

/-- The problems of the lines together, once every amount is readable. -/
def totalProblems (policy : SettlementAccountPolicy) (computed : List SettlementLine)
    (input : List SettlementLineInput) : Except MoneyError (List SettlementLineProblemCode) := do
  let sums ← sumProblems computed (usableLines input)
  .ok (sums ++ receivableProblems policy computed (usableLines input))

def validateSettlementLines (input : List SettlementLineInput) (chart : List SettlementChartAccount)
    (computed : List SettlementLine) (policy : SettlementAccountPolicy) :
    Except MoneyError SettlementLinesVerdict := do
  let count : List SettlementLineProblemCode :=
    (if input.length < SETTLEMENT_MIN_LINES then [.too_few_lines] else []) ++
      (if SETTLEMENT_MAX_LINES < input.length then [.too_many_lines] else [])
  let perLine := input.zipIdx.flatMap fun (line, i) =>
    (lineProblems chart policy line).map fun code => (⟨code, some (i + 1)⟩ : SettlementLineProblem)
  let stored := input.zipIdx.filterMap fun (line, i) => storedLine chart line (i + 1)
  let amountsReadable := input.all fun line =>
    amountProblem line.debitCents line.creditCents ≠ some .not_integer_cents
  let together ← (if amountsReadable then totalProblems policy computed input else .ok [])
  let problems := count.map (⟨·, none⟩) ++ perLine ++ together.map (⟨·, none⟩)
  .ok (if problems = [] then .accepted stored else .refused problems)

/-! ## What was edited -/

inductive SettlementLineChange
  | account | amount | memo | added | removed
deriving DecidableEq

structure SettlementLineDifference where
  lineNo : Nat
  changes : List SettlementLineChange
deriving DecidableEq

/-- The changes of one line; `theirs` is absent past the computed lines. -/
def lineChanges (mine : SettlementLine) (theirs : Option SettlementLine) : List SettlementLineChange :=
  (match theirs with
    | none => [.added]
    | some theirs =>
      (if mine.accountExternalId ≠ theirs.accountExternalId then [.account] else []) ++
        (if mine.debitCents ≠ theirs.debitCents ∨ mine.creditCents ≠ theirs.creditCents then [.amount] else [])) ++
    (if mine.memo.isSome ∧ mine.memo ≠ theirs.bind (·.memo) then [.memo] else [])

def diffSettlementLines (stored computed : List SettlementLine) : List SettlementLineDifference :=
  (List.range (max stored.length computed.length)).filterMap fun index =>
    match stored[index]? with
    | none => some ⟨index + 1, [.removed]⟩
    | some mine =>
      let changes := lineChanges mine computed[index]?
      if changes ≠ [] then some ⟨index + 1, changes⟩ else none

end Recouple.Journal
