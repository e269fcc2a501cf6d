import Recouple.Core.Money
import Recouple.Lib.CanonicalJson

/-!
# Snapshots of the books: `packages/core-domain/src/ledger-snapshot.ts`

What a ledger sync keeps of the trial balance and the general ledger, and the hash taken over it.

| `ledger-snapshot.ts`              | here                                   |
|-----------------------------------|----------------------------------------|
| `buildLedgerSnapshot` (110)       | `buildLedgerSnapshot`                  |
| `snapshotSha256` (205)            | `snapshotSha256`; SHA-256 a parameter  |
| `snapshotCanonicalJson` (223)     | `snapshotCanonicalJson`, over `Unknown` |
| `Number.isSafeInteger` in `centsText` | a field of `Cents`                 |

* **`snapshotCanonicalJson_eq_iff`**: it admits exactly what can be said in JSON with safe integers, and two values it
  admits have one text exactly when they say the same, whatever order their keys were given in.
* `hashedText_inj`: the text hashed for a snapshot is that snapshot's and that predecessor's only.
-/

namespace Recouple.LedgerSnapshot
open Js

/-! ## Canonical JSON -/

/-- What `typeof` says of a value that is no JSON value. -/
inductive Foreign
  | undefined
  | bigint
  | symbol
  | function
deriving DecidableEq

def Foreign.typeof : Foreign → Text
  | .undefined => "undefined".toList
  | .bigint => "bigint".toList
  | .symbol => "symbol".toList
  | .function => "function".toList

/-- An `unknown` value. A number that is not finite has no value; an `instance_` is an object of a class. -/
inductive Unknown
  | null
  | boolean (b : Bool)
  | number (x : Option ℚ)
  | string (t : Text)
  | array (items : List Unknown)
  | object (fields : List (Text × Unknown))
  | instance_
  | foreign (kind : Foreign)

/-- `Number.isSafeInteger(value)`, with the integer. -/
def safeInteger (x : Option ℚ) : Option Int :=
  x.bind fun q => if q.den = 1 ∧ -maxSafe ≤ q.num ∧ q.num ≤ maxSafe then some q.num else none

/-- The entries in order, each `"key":value`; the first value that is not admitted stops the list. -/
def entryTexts : List (Text × Except Text Text) → Except Text (List Text)
  | [] => .ok []
  | (key, field) :: rest => do
    let text ← field
    let texts ← entryTexts rest
    return (quote key ++ ':' :: text) :: texts

/-- `field === undefined` is refused under the field's own name. -/
def orUndefined (key : Text) (field : Unknown) (text : Except Text Text) : Except Text Text :=
  match field with
  | .foreign .undefined => .error ("canonical JSON has no undefined: ".toList ++ key)
  | _ => text

mutual
def snapshotCanonicalJson : Unknown → Except Text Text
  | .null => .ok "null".toList
  | .string t => .ok (quote t)
  | .boolean b => .ok (if b then "true".toList else "false".toList)
  | .number x =>
    match safeInteger x with
    | none => .error "canonical JSON admits only safe integers as numbers".toList
    | some n => .ok (decimalInt n)
  | .array items => do
    let texts ← itemTexts items
    return '[' :: [','].intercalate texts ++ [']']
  | .instance_ => .error "canonical JSON admits only plain objects".toList
  | .object fields => do
    let entries ← entryTexts ((fieldTexts fields).insertionSort nameLe)
    return '{' :: [','].intercalate entries ++ ['}']
  | .foreign kind => .error ("canonical JSON does not admit a ".toList ++ kind.typeof)
def itemTexts : List Unknown → Except Text (List Text)
  | [] => .ok []
  | item :: items => do
    let text ← snapshotCanonicalJson item
    let texts ← itemTexts items
    return text :: texts
/-- What each field gives, before the keys are sorted; it is looked at only after. -/
def fieldTexts : List (Text × Unknown) → List (Text × Except Text Text)
  | [] => []
  | (key, field) :: fields => (key, orUndefined key field (snapshotCanonicalJson field)) :: fieldTexts fields
end

example : snapshotCanonicalJson (.object [("b".toList, .number (some 2)), ("a".toList, .array [.null, .string []])]) =
    .ok "\x7b\"a\":[null,\"\"],\"b\":2\x7d".toList := by rfl

example : snapshotCanonicalJson (.object [("b".toList, .number none), ("a".toList, .foreign .undefined)]) =
    .error "canonical JSON has no undefined: a".toList := by rfl

/-! ## Snapshots -/

structure SnapshotTrialBalanceLine where
  account_external_id : Option Text
  account_name : Text
  debit_cents : Text
  credit_cents : Text
deriving DecidableEq

structure SnapshotPostingLine extends SnapshotTrialBalanceLine where
  txn_date : Text
  txn_type : Option Text
  transaction_external_id : Option Text
  doc_number : Option Text
deriving DecidableEq

inductive LedgerSnapshotStatus
  | complete
  | refused
deriving DecidableEq

structure LedgerSnapshotContent where
  org_id : Text
  connection_id : Text
  run_id : Text
  as_of : Text
  window_from : Text
  window_to : Text
  basis : Option Text
  currency : Option Text
  status : LedgerSnapshotStatus
  refusal_class : Option Text
  total_debit_cents : Option Text
  total_credit_cents : Option Text
  trial_balance : List SnapshotTrialBalanceLine
  ledger_postings : List SnapshotPostingLine
deriving DecidableEq

def LEDGER_SNAPSHOT_FORMAT : Text := "recouple.ledger_snapshot.v1".toList

/-- `/^[A-Za-z_$][A-Za-z0-9_$]{0,63}$/` -/
def isClassName : Text → Bool
  | [] => false
  | c :: cs =>
    (c.isAlpha || c = '_' || c = '$') && cs.all (fun c => c.isAlphanum || c = '_' || c = '$') && decide (cs.length ≤ 63)

/-- `/^\d{4}-\d{2}-\d{2}$/` -/
def isIsoDay : Text → Bool
  | [a, b, c, d, '-', e, f, '-', g, h] => [a, b, c, d, e, f, g, h].all Char.isDigit
  | _ => false

/-- `/^[0-9a-f]{64}$/` -/
def isSha256Hex (t : Text) : Bool :=
  decide (t.length = 64) && t.all fun c => c.isDigit || (decide ('a' ≤ c) && decide (c ≤ 'f'))

structure Window where
  from_ : Text
  to_ : Text
deriving DecidableEq

structure TrialBalanceLine where
  accountExternalId : Option Text
  accountName : Text
  debitCents : Cents
  creditCents : Cents

structure TrialBalance where
  asOf : Text
  basis : Option Text
  currency : Option Text
  lines : List TrialBalanceLine
  totalDebitCents : Cents
  totalCreditCents : Cents

structure GeneralLedgerLine where
  accountExternalId : Option Text
  accountName : Text
  date : Text
  transactionType : Option Text
  transactionExternalId : Option Text
  documentNumber : Option Text
  debitCents : Cents
  creditCents : Cents

structure GeneralLedgerAccount where
  accountExternalId : Option Text
  lines : List GeneralLedgerLine

structure GeneralLedger where
  window : Window
  currency : Option Text
  accounts : List GeneralLedgerAccount

/-- What the sync read: all three reports, or the class of the read that failed. -/
inductive SnapshotRead
  | complete (trialBalance : TrialBalance) (generalLedger : GeneralLedger)
  | refused (refusalClass : Text)

structure SnapshotInput where
  orgId : Text
  connectionId : Text
  runId : Text
  window : Window
  read : SnapshotRead

def centsText (amount : Cents) : Text := decimalInt amount.val

/-- One general-ledger posting, as kept. -/
def postingLine (account : GeneralLedgerAccount) (line : GeneralLedgerLine) : Except Text SnapshotPostingLine :=
  if !isIsoDay line.date then .error "a posting's date is YYYY-MM-DD".toList
  else .ok
    { account_external_id := line.accountExternalId.or account.accountExternalId
      account_name := line.accountName
      debit_cents := centsText line.debitCents
      credit_cents := centsText line.creditCents
      txn_date := line.date
      txn_type := line.transactionType
      transaction_external_id := line.transactionExternalId
      doc_number := line.documentNumber }

/-- One trial-balance row, as kept. -/
def trialLine (line : TrialBalanceLine) : SnapshotTrialBalanceLine where
  account_external_id := line.accountExternalId
  account_name := line.accountName
  debit_cents := centsText line.debitCents
  credit_cents := centsText line.creditCents

/-- The postings of a general ledger, account by account. -/
def postingLines (generalLedger : GeneralLedger) : Except Text (List SnapshotPostingLine) :=
  (generalLedger.accounts.flatMap fun account => account.lines.map fun line => (account, line)).mapM
    fun posting => postingLine posting.1 posting.2

def buildLedgerSnapshot (input : SnapshotInput) : Except Text LedgerSnapshotContent :=
  let window := input.window
  if !isIsoDay window.from_ || !isIsoDay window.to_ || decide (textLt window.to_ window.from_) then
    .error "a snapshot window is two YYYY-MM-DD days, in order".toList
  else
    match input.read with
    | .refused refusalClass =>
      if !isClassName refusalClass then
        .error "a refused snapshot carries a class name, never a message".toList
      else .ok
        { org_id := input.orgId, connection_id := input.connectionId, run_id := input.runId
          as_of := window.to_, window_from := window.from_, window_to := window.to_
          basis := none, currency := none, status := .refused, refusal_class := some refusalClass
          total_debit_cents := none, total_credit_cents := none, trial_balance := [], ledger_postings := [] }
    | .complete trialBalance generalLedger =>
      if trialBalance.asOf ≠ window.to_ then
        .error "a snapshot's trial balance is as of its run's last day".toList
      else if generalLedger.window.from_ ≠ window.from_ ∨ generalLedger.window.to_ ≠ window.to_ then
        .error "a snapshot's general ledger covers its run's window".toList
      else if (trialBalance.lines.map (·.debitCents.val)).sum ≠ trialBalance.totalDebitCents.val ∨
          (trialBalance.lines.map (·.creditCents.val)).sum ≠ trialBalance.totalCreditCents.val then
        .error "the trial balance's lines do not add up to its totals".toList
      else
        (postingLines generalLedger).map fun postings =>
          { org_id := input.orgId, connection_id := input.connectionId, run_id := input.runId
            as_of := window.to_, window_from := window.from_, window_to := window.to_
            basis := trialBalance.basis
            currency := trialBalance.currency.or generalLedger.currency
            status := .complete, refusal_class := none
            total_debit_cents := some (centsText trialBalance.totalDebitCents)
            total_credit_cents := some (centsText trialBalance.totalCreditCents)
            trial_balance := trialBalance.lines.map trialLine, ledger_postings := postings }

/-! ## The hash -/

mutual
/-- A JSON value as JavaScript holds it. -/
def ofPlain : Plain → Unknown
  | .null => .null
  | .bool b => .boolean b
  | .num n => .number (some n)
  | .str t => .string t
  | .arr items => .array (ofItems items)
  | .obj fields => .object (ofFields fields)
def ofItems : List Plain → List Unknown
  | [] => []
  | v :: vs => ofPlain v :: ofItems vs
def ofFields : List (Text × Plain) → List (Text × Unknown)
  | [] => []
  | (k, v) :: fs => (k, ofPlain v) :: ofFields fs
end

/-- A string, or `null` where there is none. -/
def orNull (t : Option Text) : Plain := (t.map Plain.str).getD .null

def LedgerSnapshotStatus.text : LedgerSnapshotStatus → Text
  | .complete => "complete".toList
  | .refused => "refused".toList

def SnapshotTrialBalanceLine.fields (line : SnapshotTrialBalanceLine) : List (Text × Plain) :=
  [("account_external_id".toList, orNull line.account_external_id),
    ("account_name".toList, .str line.account_name),
    ("debit_cents".toList, .str line.debit_cents),
    ("credit_cents".toList, .str line.credit_cents)]

def SnapshotPostingLine.fields (line : SnapshotPostingLine) : List (Text × Plain) :=
  line.toSnapshotTrialBalanceLine.fields ++
    [("txn_date".toList, .str line.txn_date),
      ("txn_type".toList, orNull line.txn_type),
      ("transaction_external_id".toList, orNull line.transaction_external_id),
      ("doc_number".toList, orNull line.doc_number)]

def LedgerSnapshotContent.plain (content : LedgerSnapshotContent) : Plain := .obj
  [("format".toList, .str LEDGER_SNAPSHOT_FORMAT),
    ("org_id".toList, .str content.org_id),
    ("connection_id".toList, .str content.connection_id),
    ("run_id".toList, .str content.run_id),
    ("as_of".toList, .str content.as_of),
    ("window_from".toList, .str content.window_from),
    ("window_to".toList, .str content.window_to),
    ("basis".toList, orNull content.basis),
    ("currency".toList, orNull content.currency),
    ("status".toList, .str content.status.text),
    ("refusal_class".toList, orNull content.refusal_class),
    ("total_debit_cents".toList, orNull content.total_debit_cents),
    ("total_credit_cents".toList, orNull content.total_credit_cents),
    ("trial_balance".toList, .arr (content.trial_balance.map fun line => .obj line.fields)),
    ("ledger_postings".toList, .arr (content.ledger_postings.map fun line => .obj line.fields))]

/-- `{ content, prev_sha256 }` -/
def payload (content : LedgerSnapshotContent) (prevSha256 : Option Text) : Plain :=
  .obj [("content".toList, content.plain), ("prev_sha256".toList, orNull prevSha256)]

section
variable (sha256 : ByteArray → Text)

def snapshotSha256 (content : LedgerSnapshotContent) (prevSha256 : Option Text) : Except Text Text :=
  if prevSha256.any fun prev => !isSha256Hex prev then
    .error "prev_sha256 is 64 lowercase hex, or null for the first".toList
  else (snapshotCanonicalJson (ofPlain (payload content prevSha256))).map fun text => sha256 (utf8 text)

end

/-! ## What canonical JSON admits -/

mutual
/-- The JSON value this is, if it is one that is admitted. -/
def plain? : Unknown → Option Plain
  | .null => some .null
  | .boolean b => some (.bool b)
  | .number x => (safeInteger x).map .num
  | .string t => some (.str t)
  | .array items => (plainItems? items).map .arr
  | .object fields => (plainFields? fields).map .obj
  | .instance_ => none
  | .foreign _ => none
def plainItems? : List Unknown → Option (List Plain)
  | [] => some []
  | u :: us => (plain? u).bind fun v => (plainItems? us).map (v :: ·)
def plainFields? : List (Text × Unknown) → Option (List (Text × Plain))
  | [] => some []
  | (k, u) :: fs => (plain? u).bind fun v => (plainFields? fs).map ((k, v) :: ·)
end

mutual
/-- An object has one property of a name. -/
def OwnKeys : Unknown → Prop
  | .array items => OwnKeysItems items
  | .object fields => (fields.map Prod.fst).Nodup ∧ OwnKeysFields fields
  | _ => True
def OwnKeysItems : List Unknown → Prop
  | [] => True
  | u :: us => OwnKeys u ∧ OwnKeysItems us
def OwnKeysFields : List (Text × Unknown) → Prop
  | [] => True
  | (_, u) :: fs => OwnKeys u ∧ OwnKeysFields fs
end

/-- What an admitted value says. -/
def document (u : Unknown) : Option Meaning := (plain? u).map Plain.meaning

/-! ### The text of an admitted value -/

theorem toOption_eq_some {ε α : Type} {x : Except ε α} {a : α} : x.toOption = some a ↔ x = .ok a := by
  cases x <;> simp [Except.toOption]

theorem intercalate_items (v : Plain) (vs : List Plain) :
    [','].intercalate ((v :: vs).map Plain.compact) = v.compact ++ Plain.compactItems vs := by
  induction vs generalizing v with
  | nil => simp [List.intercalate, Plain.compactItems]
  | cons w ws ih =>
    have hstep : [','].intercalate ((v :: w :: ws).map Plain.compact) =
        v.compact ++ ',' :: [','].intercalate ((w :: ws).map Plain.compact) := by
      simp [List.intercalate, List.intersperse]
    rw [hstep, ih w, Plain.compactItems]
    simp

/-- A field as it is written. -/
def fieldText (p : Text × Plain) : Text := quote p.1 ++ ':' :: p.2.compact

theorem intercalate_fields (k : Text) (v : Plain) (fs : List (Text × Plain)) :
    [','].intercalate (((k, v) :: fs).map fieldText) = quote k ++ ':' :: v.compact ++ Plain.compactFields fs := by
  induction fs generalizing k v with
  | nil => simp [List.intercalate, Plain.compactFields, fieldText]
  | cons f fs ih =>
    obtain ⟨k', w⟩ := f
    have hstep : [','].intercalate (((k, v) :: (k', w) :: fs).map fieldText) =
        fieldText (k, v) ++ ',' :: [','].intercalate (((k', w) :: fs).map fieldText) := by
      simp [List.intercalate, List.intersperse]
    rw [hstep, ih k' w, Plain.compactFields, fieldText]
    simp

theorem compact_arr (vs : List Plain) :
    (Plain.arr vs).compact = '[' :: [','].intercalate (vs.map Plain.compact) ++ [']'] := by
  cases vs with
  | nil => rfl
  | cons v vs => rw [intercalate_items, Plain.compact]; simp

theorem compact_obj (fs : List (Text × Plain)) :
    (Plain.obj fs).compact = '\x7b' :: [','].intercalate (fs.map fieldText) ++ ['\x7d'] := by
  match fs with
  | [] => rfl
  | (k, v) :: fs => rw [intercalate_fields, Plain.compact]; simp

/-- A field whose text is there. -/
def there (p : Text × Plain) : Text × Except Text Text := (p.1, .ok p.2.compact)

theorem entryTexts_there : ∀ fs : List (Text × Plain), entryTexts (fs.map there) = .ok (fs.map fieldText)
  | [] => rfl
  | f :: fs => by
    rw [List.map_cons, there, entryTexts, entryTexts_there fs]
    rfl

theorem insertionSort_there (fs : List (Text × Plain)) :
    (fs.map there).insertionSort nameLe = (fs.insertionSort nameLe).map there :=
  (List.map_insertionSort nameLe nameLe there fs fun _ _ _ _ => Iff.rfl).symm

/-- One value that is not admitted is enough. -/
theorem entryTexts_of_mem {k : Text} {r : Except Text Text} (hr : r.toOption = none) :
    ∀ {es : List (Text × Except Text Text)}, (k, r) ∈ es → (entryTexts es).toOption = none
  | (k', r') :: es, h => by
    rw [entryTexts]
    rcases List.mem_cons.1 h with h | h
    · cases h
      cases r with
      | error e => rfl
      | ok t => simp [Except.toOption] at hr
    · have ih := entryTexts_of_mem hr h
      cases r' with
      | error e => rfl
      | ok t =>
        cases hes : entryTexts es with
        | error e => rfl
        | ok ts => simp [hes, Except.toOption] at ih

theorem orUndefined_toOption (key : Text) (u : Unknown) (text : Except Text Text)
    (h : text.toOption = (plain? u).map Plain.canonical) :
    (orUndefined key u text).toOption = (plain? u).map Plain.canonical := by
  match u with
  | .foreign .undefined => rfl
  | .foreign .bigint | .foreign .symbol | .foreign .function => exact h
  | .null | .boolean _ | .number _ | .string _ | .array _ | .object _ | .instance_ => exact h

mutual
/-- **The text is the canonical text of the value**, and there is none of a value that is not admitted. -/
theorem snapshotCanonicalJson_toOption : ∀ u : Unknown,
    (snapshotCanonicalJson u).toOption = (plain? u).map Plain.canonical
  | .null => rfl
  | .boolean b => by cases b <;> rfl
  | .number x => by
    rw [snapshotCanonicalJson, plain?]
    cases safeInteger x <;> rfl
  | .string t => rfl
  | .array items => by
    have ih := itemTexts_toOption items
    rw [snapshotCanonicalJson, plain?]
    cases hitems : itemTexts items with
    | error e =>
      rw [hitems] at ih
      cases hp : plainItems? items with
      | none => rfl
      | some vs => rw [hp] at ih; cases ih
    | ok texts =>
      rw [hitems] at ih
      cases hp : plainItems? items with
      | none => rw [hp] at ih; cases ih
      | some vs =>
        rw [hp] at ih
        have htexts : texts = (Plain.sortedItems vs).map Plain.compact := Option.some.inj ih
        subst htexts
        show some _ = some (Plain.canonical (.arr vs))
        rw [Plain.canonical, Plain.sorted, compact_arr]
  | .object fields => by
    rw [snapshotCanonicalJson, plain?]
    cases hp : plainFields? fields with
    | none =>
      obtain ⟨k, r, hmem, hr⟩ := fieldTexts_of_none fields hp
      have hmem' : (k, r) ∈ (fieldTexts fields).insertionSort nameLe := (List.mem_insertionSort nameLe).2 hmem
      have hnone := entryTexts_of_mem hr hmem'
      cases hentries : entryTexts ((fieldTexts fields).insertionSort nameLe) with
      | error e => rfl
      | ok ts => simp [hentries, Except.toOption] at hnone
    | some fs =>
      rw [fieldTexts_of_some fields hp, insertionSort_there, entryTexts_there]
      show some _ = some (Plain.canonical (.obj fs))
      rw [Plain.canonical, Plain.sorted, compact_obj]
  | .instance_ => rfl
  | .foreign kind => rfl
theorem itemTexts_toOption : ∀ us : List Unknown,
    (itemTexts us).toOption = (plainItems? us).map fun vs => (Plain.sortedItems vs).map Plain.compact
  | [] => rfl
  | u :: us => by
    have hu := snapshotCanonicalJson_toOption u
    have hus := itemTexts_toOption us
    rw [itemTexts, plainItems?]
    cases hv : plain? u with
    | none =>
      rw [hv] at hu
      cases ht : snapshotCanonicalJson u with
      | error e => rfl
      | ok t => rw [ht] at hu; cases hu
    | some v =>
      rw [hv] at hu
      rw [toOption_eq_some.1 hu]
      cases hvs : plainItems? us with
      | none =>
        rw [hvs] at hus
        cases ht : itemTexts us with
        | error e => rfl
        | ok t => rw [ht] at hus; cases hus
      | some vs =>
        rw [hvs] at hus
        rw [toOption_eq_some.1 hus]
        rfl
theorem fieldTexts_of_some : ∀ (us : List (Text × Unknown)) {fs : List (Text × Plain)}, plainFields? us = some fs →
    fieldTexts us = (Plain.sortedFields fs).map there
  | [], fs, h => by cases h; rfl
  | (k, u) :: us, fs, h => by
    rw [plainFields?, Option.bind_eq_some_iff] at h
    obtain ⟨v, hv, h⟩ := h
    obtain ⟨vs, hvs, rfl⟩ := Option.map_eq_some_iff.1 h
    have hu := orUndefined_toOption k u _ (snapshotCanonicalJson_toOption u)
    rw [hv] at hu
    rw [fieldTexts, toOption_eq_some.1 hu, fieldTexts_of_some us hvs]
    rfl
theorem fieldTexts_of_none : ∀ us : List (Text × Unknown), plainFields? us = none →
    ∃ k r, (k, r) ∈ fieldTexts us ∧ r.toOption = none
  | [], h => by cases h
  | (k, u) :: us, h => by
    rw [fieldTexts]
    have hu := orUndefined_toOption k u _ (snapshotCanonicalJson_toOption u)
    cases hv : plain? u with
    | none =>
      rw [hv] at hu
      exact ⟨k, _, List.mem_cons_self, hu⟩
    | some v =>
      rw [plainFields?, hv, Option.bind_some, Option.map_eq_none_iff] at h
      obtain ⟨k', r, hmem, hr⟩ := fieldTexts_of_none us h
      exact ⟨k', r, List.mem_cons_of_mem _ hmem, hr⟩
end

theorem snapshotCanonicalJson_ok_iff {u : Unknown} {t : Text} :
    snapshotCanonicalJson u = .ok t ↔ ∃ v, plain? u = some v ∧ t = v.canonical := by
  rw [← toOption_eq_some, snapshotCanonicalJson_toOption, Option.map_eq_some_iff]
  exact exists_congr fun v => and_congr_right fun _ => eq_comm

theorem plainFields?_names : ∀ {us : List (Text × Unknown)} {fs : List (Text × Plain)}, plainFields? us = some fs →
    fs.map Prod.fst = us.map Prod.fst
  | [], fs, h => by cases h; rfl
  | (k, u) :: us, fs, h => by
    rw [plainFields?, Option.bind_eq_some_iff] at h
    obtain ⟨v, -, h⟩ := h
    obtain ⟨vs, hvs, rfl⟩ := Option.map_eq_some_iff.1 h
    rw [List.map_cons, List.map_cons, plainFields?_names hvs]

mutual
theorem OwnKeys.distinct : ∀ {u : Unknown} {v : Plain}, OwnKeys u → plain? u = some v → v.Distinct
  | .null, v, _, h => by cases h; trivial
  | .boolean b, v, _, h => by cases h; trivial
  | .number x, v, _, h => by
    obtain ⟨n, -, rfl⟩ := Option.map_eq_some_iff.1 h
    trivial
  | .string t, v, _, h => by cases h; trivial
  | .array items, v, hu, h => by
    rw [plain?] at h
    obtain ⟨vs, hvs, rfl⟩ := Option.map_eq_some_iff.1 h
    exact OwnKeysItems.distinct hu hvs
  | .object fields, v, hu, h => by
    rw [plain?] at h
    obtain ⟨fs, hfs, rfl⟩ := Option.map_eq_some_iff.1 h
    rw [OwnKeys] at hu
    rw [Plain.Distinct, plainFields?_names hfs]
    exact ⟨hu.1, OwnKeysFields.distinct hu.2 hfs⟩
  | .instance_, v, _, h => by cases h
  | .foreign _, v, _, h => by cases h
theorem OwnKeysItems.distinct : ∀ {us : List Unknown} {vs : List Plain}, OwnKeysItems us → plainItems? us = some vs →
    Plain.DistinctItems vs
  | [], vs, _, h => by cases h; trivial
  | u :: us, vs, hu, h => by
    rw [plainItems?, Option.bind_eq_some_iff] at h
    obtain ⟨v, hv, h⟩ := h
    obtain ⟨ws, hws, rfl⟩ := Option.map_eq_some_iff.1 h
    rw [OwnKeysItems] at hu
    exact ⟨OwnKeys.distinct hu.1 hv, OwnKeysItems.distinct hu.2 hws⟩
theorem OwnKeysFields.distinct : ∀ {us : List (Text × Unknown)} {fs : List (Text × Plain)}, OwnKeysFields us →
    plainFields? us = some fs → Plain.DistinctFields fs
  | [], fs, _, h => by cases h; trivial
  | (k, u) :: us, fs, hu, h => by
    rw [plainFields?, Option.bind_eq_some_iff] at h
    obtain ⟨v, hv, h⟩ := h
    obtain ⟨ws, hws, rfl⟩ := Option.map_eq_some_iff.1 h
    rw [OwnKeysFields] at hu
    exact ⟨OwnKeys.distinct hu.1 hv, OwnKeysFields.distinct hu.2 hws⟩
end

/-- **Canonical JSON tells values apart, and only values.** A value, its arrays without holes, is refused exactly where it
is not admitted; two values have one text exactly where they say the same. -/
theorem snapshotCanonicalJson_eq_iff {u w : Unknown} (hu : OwnKeys u) (hw : OwnKeys w) :
    ((∃ e, snapshotCanonicalJson u = .error e) ↔ document u = none) ∧
      ∀ {s t : Text}, snapshotCanonicalJson u = .ok s → snapshotCanonicalJson w = .ok t →
        (s = t ↔ document u = document w) := by
  constructor
  · have h := snapshotCanonicalJson_toOption u
    unfold document
    cases hs : snapshotCanonicalJson u with
    | error e => rw [hs] at h; simpa [Except.toOption, eq_comm] using h
    | ok t => rw [hs] at h; cases hv : plain? u <;> simp [hv, Except.toOption] at h ⊢
  · intro s t hs ht
    obtain ⟨v, hv, rfl⟩ := snapshotCanonicalJson_ok_iff.1 hs
    obtain ⟨x, hx, rfl⟩ := snapshotCanonicalJson_ok_iff.1 ht
    rw [document, document, hv, hx, Option.map_some, Option.map_some, Option.some.injEq]
    exact Plain.canonical_eq_iff (hu.distinct hv) (hw.distinct hx)

theorem snapshotCanonicalJson_eq_iff_swapped :
    (snapshotCanonicalJson (.object [("b".toList, .null), ("a".toList, .number (some 1))]) =
      .ok "\x7b\"a\":1,\"b\":null\x7d".toList) ∧
    document (.object [("b".toList, .null), ("a".toList, .number (some 1))]) =
      document (.object [("a".toList, .number (some 1)), ("b".toList, .null)]) := by
  have hs : snapshotCanonicalJson (.object [("b".toList, .null), ("a".toList, .number (some 1))]) =
      .ok "\x7b\"a\":1,\"b\":null\x7d".toList := by rfl
  have ht : snapshotCanonicalJson (.object [("a".toList, .number (some 1)), ("b".toList, .null)]) =
      .ok "\x7b\"a\":1,\"b\":null\x7d".toList := by rfl
  exact ⟨hs, ((snapshotCanonicalJson_eq_iff (by simp [OwnKeys, OwnKeysFields]) (by simp [OwnKeys, OwnKeysFields])).2
    hs ht).1 rfl⟩

/-! ## The text a snapshot is hashed as -/

mutual
/-- Every number is a safe integer. -/
def Safe : Plain → Prop
  | .num n => -maxSafe ≤ n ∧ n ≤ maxSafe
  | .arr items => SafeItems items
  | .obj fields => SafeFields fields
  | _ => True
def SafeItems : List Plain → Prop
  | [] => True
  | v :: vs => Safe v ∧ SafeItems vs
def SafeFields : List (Text × Plain) → Prop
  | [] => True
  | (_, v) :: fs => Safe v ∧ SafeFields fs
end

mutual
theorem plain?_ofPlain : ∀ {v : Plain}, Safe v → plain? (ofPlain v) = some v
  | .null, _ => rfl
  | .bool _, _ => rfl
  | .num n, h => by
    rw [Safe] at h
    rw [ofPlain, plain?, safeInteger, Option.bind_some, if_pos (by simpa using h)]
    rfl
  | .str _, _ => rfl
  | .arr items, h => by rw [ofPlain, plain?, plainItems?_ofItems h]; rfl
  | .obj fields, h => by rw [ofPlain, plain?, plainFields?_ofFields h]; rfl
theorem plainItems?_ofItems : ∀ {vs : List Plain}, SafeItems vs → plainItems? (ofItems vs) = some vs
  | [], _ => rfl
  | v :: vs, h => by
    rw [SafeItems] at h
    rw [ofItems, plainItems?, plain?_ofPlain h.1, plainItems?_ofItems h.2]
    rfl
theorem plainFields?_ofFields : ∀ {fs : List (Text × Plain)}, SafeFields fs → plainFields? (ofFields fs) = some fs
  | [], _ => rfl
  | (k, v) :: fs, h => by
    rw [SafeFields] at h
    rw [ofFields, plainFields?, plain?_ofPlain h.1, plainFields?_ofFields h.2]
    rfl
end

theorem safeItems_iff : ∀ {vs : List Plain}, SafeItems vs ↔ ∀ v ∈ vs, Safe v
  | [] => by simp [SafeItems]
  | v :: vs => by rw [SafeItems, safeItems_iff, List.forall_mem_cons]

@[simp] theorem safe_orNull (t : Option Text) : Safe (orNull t) := by cases t <;> trivial

@[simp] theorem distinct_orNull (t : Option Text) : (orNull t).Distinct := by cases t <;> trivial

@[simp] theorem meaning_orNull_inj {t u : Option Text} : (orNull t).meaning = (orNull u).meaning ↔ t = u := by
  cases t <;> cases u <;> simp [orNull, Plain.meaning]

theorem LedgerSnapshotStatus.text_injective : Function.Injective LedgerSnapshotStatus.text := by
  intro a b h
  cases a <;> cases b <;> first | rfl | exact absurd h (by decide)

/-! ### A line -/

theorem safe_trialLine (line : SnapshotTrialBalanceLine) : Safe (.obj line.fields) := by
  simp [SnapshotTrialBalanceLine.fields, Safe, SafeFields]

theorem safe_postingLine (line : SnapshotPostingLine) : Safe (.obj line.fields) := by
  simp [SnapshotPostingLine.fields, SnapshotTrialBalanceLine.fields, Safe, SafeFields]

theorem distinct_trialLine (line : SnapshotTrialBalanceLine) : (Plain.obj line.fields).Distinct := by
  refine ⟨?_, by simp [SnapshotTrialBalanceLine.fields, Plain.Distinct, Plain.DistinctFields]⟩
  show ["account_external_id".toList, "account_name".toList, "debit_cents".toList, "credit_cents".toList].Nodup
  decide

theorem names_postingLine (line : SnapshotPostingLine) : line.fields.map Prod.fst =
    ["account_external_id".toList, "account_name".toList, "debit_cents".toList, "credit_cents".toList,
      "txn_date".toList, "txn_type".toList, "transaction_external_id".toList, "doc_number".toList] := rfl

theorem distinct_postingLine (line : SnapshotPostingLine) : (Plain.obj line.fields).Distinct := by
  refine ⟨?_, by simp [SnapshotPostingLine.fields, SnapshotTrialBalanceLine.fields, Plain.Distinct,
    Plain.DistinctFields]⟩
  rw [names_postingLine]
  decide

theorem trialLine_inj {l m : SnapshotTrialBalanceLine}
    (h : (Plain.obj l.fields).meaning = (Plain.obj m.fields).meaning) : l = m := by
  rw [Plain.meaning, Plain.meaning, Meaning.obj.injEq] at h
  have h' := Plain.meanings_eq_of_held h (distinct_trialLine l).1 rfl
  simp [SnapshotTrialBalanceLine.fields, Plain.meanings, Plain.meaning] at h'
  cases l
  cases m
  simp_all

theorem postingLine_inj {l m : SnapshotPostingLine}
    (h : (Plain.obj l.fields).meaning = (Plain.obj m.fields).meaning) : l = m := by
  rw [Plain.meaning, Plain.meaning, Meaning.obj.injEq] at h
  have h' := Plain.meanings_eq_of_held h (distinct_postingLine l).1 rfl
  simp [SnapshotPostingLine.fields, SnapshotTrialBalanceLine.fields, Plain.meanings, Plain.meaning] at h'
  obtain ⟨⟨_, _, _, _⟩, _, _, _, _⟩ := l
  obtain ⟨⟨_, _, _, _⟩, _, _, _, _⟩ := m
  simp_all

/-! ### A snapshot -/

theorem safe_content (content : LedgerSnapshotContent) : Safe content.plain := by
  have htrial : SafeItems (content.trial_balance.map fun line => .obj line.fields) := by
    rw [safeItems_iff, List.forall_mem_map]
    exact fun line _ => safe_trialLine line
  have hpostings : SafeItems (content.ledger_postings.map fun line => .obj line.fields) := by
    rw [safeItems_iff, List.forall_mem_map]
    exact fun line _ => safe_postingLine line
  simp [LedgerSnapshotContent.plain, Safe, SafeFields, htrial, hpostings]

theorem safe_payload (content : LedgerSnapshotContent) (prev : Option Text) : Safe (payload content prev) := by
  simp [payload, Safe, SafeFields, safe_content]

theorem distinct_content (content : LedgerSnapshotContent) : content.plain.Distinct := by
  have htrial : Plain.DistinctItems (content.trial_balance.map fun line => .obj line.fields) := by
    rw [Plain.distinctItems_iff, List.forall_mem_map]
    exact fun line _ => distinct_trialLine line
  have hpostings : Plain.DistinctItems (content.ledger_postings.map fun line => .obj line.fields) := by
    rw [Plain.distinctItems_iff, List.forall_mem_map]
    exact fun line _ => distinct_postingLine line
  rw [LedgerSnapshotContent.plain, Plain.Distinct]
  refine ⟨?_, by simp [Plain.Distinct, Plain.DistinctFields, htrial, hpostings]⟩
  show ["format".toList, "org_id".toList, "connection_id".toList, "run_id".toList, "as_of".toList,
    "window_from".toList, "window_to".toList, "basis".toList, "currency".toList, "status".toList,
    "refusal_class".toList, "total_debit_cents".toList, "total_credit_cents".toList, "trial_balance".toList,
    "ledger_postings".toList].Nodup
  decide

theorem distinct_payload (content : LedgerSnapshotContent) (prev : Option Text) :
    (payload content prev).Distinct := by
  rw [payload, Plain.Distinct]
  refine ⟨?_, by simp [Plain.DistinctFields, distinct_content]⟩
  show ["content".toList, "prev_sha256".toList].Nodup
  decide

theorem lines_inj {α : Type} {f : α → Plain} (hf : ∀ a b, (f a).meaning = (f b).meaning → a = b) {l m : List α}
    (h : Plain.meanings (l.map f) = Plain.meanings (m.map f)) : l = m := by
  rw [Plain.meanings_eq_map, Plain.meanings_eq_map, List.map_map, List.map_map] at h
  exact List.map_injective_iff.2 (fun a b hab => hf a b hab) h

theorem content_inj {c d : LedgerSnapshotContent} (h : c.plain.meaning = d.plain.meaning) : c = d := by
  rw [LedgerSnapshotContent.plain, LedgerSnapshotContent.plain, Plain.meaning, Plain.meaning, Meaning.obj.injEq] at h
  have h' := Plain.meanings_eq_of_held h (distinct_content c).1 rfl
  simp only [Plain.meanings, Plain.meaning, List.map_cons, List.map_nil, List.cons.injEq, Meaning.str.injEq,
    Meaning.arr.injEq, meaning_orNull_inj, and_true, true_and] at h'
  obtain ⟨h1, h2, h3, h4, h5, h6, h7, h8, h9, h10, h11, h12, h13, h14⟩ := h'
  have h9 := LedgerSnapshotStatus.text_injective h9
  have h13 := lines_inj (fun _ _ => trialLine_inj) h13
  have h14 := lines_inj (fun _ _ => postingLine_inj) h14
  cases c
  cases d
  simp_all

theorem payload_inj {c d : LedgerSnapshotContent} {p q : Option Text}
    (h : (payload c p).meaning = (payload d q).meaning) : c = d ∧ p = q := by
  rw [payload, payload, Plain.meaning, Plain.meaning, Meaning.obj.injEq] at h
  have h' := Plain.meanings_eq_of_held h (distinct_payload c p).1 rfl
  simp only [Plain.meanings, List.map_cons, List.map_nil, List.cons.injEq, meaning_orNull_inj, and_true] at h'
  exact ⟨content_inj h'.1, h'.2⟩

/-- The text a snapshot is hashed as. -/
def hashedText (content : LedgerSnapshotContent) (prev : Option Text) : Text := (payload content prev).canonical

/-- The text hashed for a snapshot is that snapshot's and that predecessor's only. -/
theorem hashedText_inj {c d : LedgerSnapshotContent} {p q : Option Text} (h : hashedText c p = hashedText d q) :
    c = d ∧ p = q :=
  payload_inj ((Plain.canonical_eq_iff (distinct_payload c p) (distinct_payload d q)).1 h)

theorem snapshotSha256_eq (sha256 : ByteArray → Text) (content : LedgerSnapshotContent) (prev : Option Text) :
    snapshotSha256 sha256 content prev =
      if prev.any fun t => !isSha256Hex t then
        .error "prev_sha256 is 64 lowercase hex, or null for the first".toList
      else .ok (sha256 (utf8 (hashedText content prev))) := by
  have htext : snapshotCanonicalJson (ofPlain (payload content prev)) = .ok (hashedText content prev) :=
    snapshotCanonicalJson_ok_iff.2 ⟨_, plain?_ofPlain (safe_payload content prev), rfl⟩
  rw [snapshotSha256, htext]
  rfl

end Recouple.LedgerSnapshot
