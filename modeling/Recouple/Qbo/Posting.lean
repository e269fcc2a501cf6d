import Recouple.Core.JournalConservation
import Recouple.Qbo.Reader

/-!
# The lines a write-back posts: `packages/qbo/src/posting.ts`

| here | there |
| --- | --- |
| `entryLines`, `assertBalanced` | `posting.ts` (240-267) |
| `settlementStages` | `posting.ts` (270-272) |
| `accountFor` | `posting.ts` (274-289) |

`LedgerAccountMap` and core-domain's `SettlementAccountIds` are one shape, and a caller hands one value to both
builders.

* **`entryLines_ok`**: `entryLines` returns the staged rows of the draft as posting lines, exactly where every
  account is a QuickBooks id and the two totals are one safe integer.
* **`entryLines_computed`**: what it returns is what `settlementLinesFrom` computes, line for line.
-/

namespace Recouple.Qbo
open Js KeyedFold Journal

/-- What the posting builders throw. -/
inductive PostingError
  /-- `PostingInputError` -/
  | input (message : Text)
  /-- `QboInvalidId` -/
  | invalidId (message : Text)
  | money (e : MoneyError)
deriving DecidableEq

abbrev LedgerAccountMap := SettlementAccountIds

inductive PostingSide
  | Debit | Credit
deriving DecidableEq

structure PostingLine where
  accountId : Text
  side : PostingSide
  amountCents : Cents
deriving DecidableEq

def settlementStages (includeFound : Bool) : List JournalStage :=
  if includeFound then [.found, .recovered, .written_off] else [.recovered, .written_off]

def accountFor (role : AccountRole) (family : Option ReasonFamily) (map : LedgerAccountMap) :
    Except PostingError Text :=
  match role with
  | .accounts_receivable | .cash => assertQboId .invalidId map.arAccountId
  | .deductions_receivable => assertQboId .invalidId map.deductionsReceivableAccountId
  | .writeoff_expense =>
    assertQboId .invalidId (match family with
      | none => map.unclassifiedWriteoff
      | some family => map.writeoffByFamily family)

/-- The amounts on one side. -/
def amountsOf (side : PostingSide) (lines : List PostingLine) : List Cents :=
  (lines.filter fun line => line.side = side).map (·.amountCents)

def assertBalanced (lines : List PostingLine) : Except PostingError Unit := do
  let debits ← (sumCents (amountsOf .Debit lines)).mapError .money
  let credits ← (sumCents (amountsOf .Credit lines)).mapError .money
  if debits ≠ credits then
    .error (.input ("the entry does not balance: ".toList ++ printed debits ++ " debit, ".toList ++ printed credits ++
      " credit".toList))
  else .ok ()

/-- What the loop pushes for one draft line. -/
def posted (map : LedgerAccountMap) (entry : DraftEntry) (line : JournalLine) : Except PostingError (List PostingLine) := do
  let accountId ← accountFor line.role entry.tag map
  .ok ((if 0 < line.debit.val then [⟨accountId, .Debit, line.debit⟩] else []) ++
    (if 0 < line.credit.val then [⟨accountId, .Credit, line.credit⟩] else []))

def entryLines (entries : List DraftEntry) (map : LedgerAccountMap) (stages : List JournalStage) :
    Except PostingError (List PostingLine) := do
  let pushed ← (entries.filter fun entry => entry.stage ∈ stages).mapM fun entry => entry.lines.mapM (posted map entry)
  let lines := pushed.flatten.flatten
  if lines = [] then
    .error (.input ("no draft lines for ".toList ++ List.intercalate ", ".toList (stages.map JournalStage.text)))
  else do
    assertBalanced lines
    .ok lines

/-! ## What it returns -/

/-- The account of a role is the one the computed lines name, checked. -/
theorem accountFor_eq (role : AccountRole) (family : Option ReasonFamily) (map : LedgerAccountMap) :
    accountFor role family map = assertQboId .invalidId (Journal.accountFor role family map) := by
  cases role <;> rfl

/-- A computed row as a posting line. -/
def ofRow (row : Text × Cents × Cents) : PostingLine :=
  if 0 < row.2.1.val then ⟨row.1, .Debit, row.2.1⟩ else ⟨row.1, .Credit, row.2.2⟩

/-- A computed line as a posting line: its account, its side and its cents. -/
def posting (line : SettlementLine) : PostingLine := ofRow (line.accountExternalId, line.debitCents, line.creditCents)

section
variable {map : LedgerAccountMap} {entry : DraftEntry} {line : JournalLine} {ls : List PostingLine}

theorem posted_ok : posted map entry line = .ok ls ↔
    isQboId (Journal.accountFor line.role entry.tag map) = true ∧ ls = (pushed map entry line).map ofRow := by
  have hz : ¬ 0 < ZERO.val := by decide
  have hrows : ∀ id, id = Journal.accountFor line.role entry.tag map →
      (if 0 < line.debit.val then [(⟨id, .Debit, line.debit⟩ : PostingLine)] else []) ++
        (if 0 < line.credit.val then [⟨id, .Credit, line.credit⟩] else []) = (pushed map entry line).map ofRow := by
    rintro id rfl
    by_cases hd : 0 < line.debit.val <;> by_cases hc : 0 < line.credit.val <;> simp [pushed, ofRow, hd, hc, hz]
  unfold posted
  rw [bind_ok]
  constructor
  · rintro ⟨id, hid, h⟩
    rw [accountFor_eq, assertQboId_ok] at hid
    exact ⟨hid.1, (Except.ok.inj h).symm.trans (hrows id hid.2)⟩
  · rintro ⟨hid, h⟩
    refine ⟨_, ?_, congrArg _ ((hrows _ rfl).trans h.symm)⟩
    rw [accountFor_eq, assertQboId_ok]
    exact ⟨hid, rfl⟩

end

/-- The rows of the draft's entries at some stages. -/
def rowsAt (entries : List DraftEntry) (map : LedgerAccountMap) (stages : List JournalStage) : List (Text × Cents × Cents) :=
  rowsOf map (entries.filter fun entry => entry.stage ∈ stages)

/-- Every account the entries at some stages name is a QuickBooks id. -/
def IdsAt (entries : List DraftEntry) (map : LedgerAccountMap) (stages : List JournalStage) : Prop :=
  ∀ entry ∈ entries.filter fun entry => entry.stage ∈ stages, ∀ line ∈ entry.lines,
    isQboId (Journal.accountFor line.role entry.tag map) = true

/-- What is posted on one side. -/
def sideTotal (side : PostingSide) (lines : List PostingLine) : Int := ((amountsOf side lines).map Cents.val).sum

theorem mapM_mapM_ok {α β δ ε : Type} {f : α → β → Except ε δ} {P : α → β → Prop} {g : α → β → δ} {items : α → List β}
    (hf : ∀ a b d, f a b = .ok d ↔ P a b ∧ d = g a b) {l : List α} {out : List (List δ)} :
    (l.mapM fun a => (items a).mapM (f a)) = .ok out ↔
      (∀ a ∈ l, ∀ b ∈ items a, P a b) ∧ out = l.map fun a => (items a).map (g a) :=
  mapM_ok_iff fun a _ => mapM_ok_iff (hf a)

section
variable {entries : List DraftEntry} {map : LedgerAccountMap} {stages : List JournalStage} {lines : List PostingLine}

theorem rowsAt_flatten : (((entries.filter fun entry => entry.stage ∈ stages).map fun entry =>
    entry.lines.map fun line => (pushed map entry line).map ofRow).flatten.flatten) =
      (rowsAt entries map stages).map ofRow := by
  rw [rowsAt, rowsOf]
  induction entries.filter fun entry => entry.stage ∈ stages with
  | nil => rfl
  | cons entry rest ih =>
    rw [List.map_cons, List.flatten_cons, List.flatten_append, ih, List.flatMap_cons, List.map_append]
    congr 1
    rw [List.flatMap_def, List.map_flatten, List.map_map]
    rfl

theorem amountsOf_nonneg (h : ∀ line ∈ lines, 0 ≤ line.amountCents.val) (side : PostingSide) :
    ∀ v ∈ amountsOf side lines, 0 ≤ v.val := by
  intro v hv
  obtain ⟨line, hline, rfl⟩ := List.mem_map.1 hv
  exact h line (List.mem_filter.1 hline).1

/-- Lines of amounts that are not negative balance where their two totals are one safe integer. -/
theorem assertBalanced_ok (h : ∀ line ∈ lines, 0 ≤ line.amountCents.val) : assertBalanced lines = .ok () ↔
    sideTotal .Debit lines = sideTotal .Credit lines ∧ InRange (sideTotal .Debit lines) := by
  have hsum : ∀ side total, sumCents (amountsOf side lines) = .ok total ↔ total.val = sideTotal side lines :=
    fun side _ => Journal.sumCents_ok (amountsOf_nonneg h side)
  unfold assertBalanced
  rw [bind_ok]
  constructor
  · rintro ⟨debits, hd, h⟩
    rw [bind_ok] at h
    obtain ⟨credits, hc, h⟩ := h
    have hd := (hsum _ _).1 (mapError_ok.1 hd)
    have hc := (hsum _ _).1 (mapError_ok.1 hc)
    have heq : debits = credits := by
      by_contra hne
      rw [if_pos hne] at h
      cases h
    subst heq
    exact ⟨hd.symm.trans hc, hd ▸ debits.inRange⟩
  · rintro ⟨heq, hin⟩
    refine ⟨⟨_, hin.1, hin.2⟩, mapError_ok.2 ((hsum _ _).2 rfl), ?_⟩
    rw [bind_ok]
    exact ⟨⟨_, hin.1, hin.2⟩, mapError_ok.2 ((hsum _ _).2 heq), if_neg (by simp)⟩

theorem ofRow_nonneg {row : Text × Cents × Cents} (h : row ∈ rowsAt entries map stages) :
    0 ≤ (ofRow row).amountCents.val := by
  obtain ⟨entry, -, hrow⟩ := List.mem_flatMap.1 h
  obtain ⟨line, -, hrow⟩ := List.mem_flatMap.1 hrow
  have hside := (pushed_oneSided hrow).nonneg
  unfold ofRow
  split
  · exact hside.1
  · exact hside.2

/-- `entryLines` returns the rows of the stages, where there are some, every account is a QuickBooks id and the
two totals are one safe integer. -/
theorem entryLines_ok : entryLines entries map stages = .ok lines ↔
    IdsAt entries map stages ∧ lines = (rowsAt entries map stages).map ofRow ∧ lines ≠ [] ∧
      sideTotal .Debit lines = sideTotal .Credit lines ∧ InRange (sideTotal .Debit lines) := by
  have hnonneg : ∀ line ∈ (rowsAt entries map stages).map ofRow, 0 ≤ line.amountCents.val := by
    intro line hline
    obtain ⟨row, hrow, rfl⟩ := List.mem_map.1 hline
    exact ofRow_nonneg hrow
  unfold entryLines
  rw [bind_ok]
  constructor
  · rintro ⟨rows, hrows, h⟩
    obtain ⟨hids, rfl⟩ := (mapM_mapM_ok fun _ _ _ => posted_ok).1 hrows
    rw [rowsAt_flatten] at h
    dsimp only at h
    split at h
    · cases h
    · rename_i hne
      rw [bind_ok] at h
      obtain ⟨_, hbalanced, h⟩ := h
      obtain rfl := Except.ok.inj h
      exact ⟨hids, rfl, hne, (assertBalanced_ok hnonneg).1 hbalanced⟩
  · rintro ⟨hids, rfl, hne, hbalanced⟩
    refine ⟨_, (mapM_mapM_ok fun _ _ _ => posted_ok).2 ⟨hids, rfl⟩, ?_⟩
    rw [rowsAt_flatten, if_neg hne]
    exact bind_ok.2 ⟨(), (assertBalanced_ok hnonneg).2 hbalanced, rfl⟩

/-- **One computation**: what `entryLines` returns for a settlement's stages is what `settlementLinesFrom`
computes: the same accounts, sides and cents in the same order. -/
theorem entryLines_computed {includeFound : Bool} (h : entryLines entries map (settlementStages includeFound) = .ok lines) :
    ∃ computed, settlementLinesFrom entries map includeFound = .ok computed ∧ computed.map posting = lines := by
  obtain ⟨-, rfl, hne, -⟩ := entryLines_ok.1 h
  have hrows : stagedRows entries map includeFound = rowsAt entries map (settlementStages includeFound) := rfl
  refine ⟨_, settlementLinesFrom_ok.2 ⟨fun hnil => hne ?_, rfl⟩, ?_⟩
  · rw [← hrows, hnil]
    rfl
  · rw [hrows]
    refine List.ext_getElem (by simp) fun i h1 h2 => ?_
    rw [List.getElem_map, List.getElem_mapIdx, List.getElem_map]
    rfl

end

end Recouple.Qbo
