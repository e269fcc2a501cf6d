import Recouple.Core.Packet
import Recouple.Lib.Text

/-!
# A draft's code table: `packages/core-domain/src/payer-code-map.ts` (45-72, 145-307)

| here | there |
| --- | --- |
| `Untyped` | an `unknown` value |
| `record`, `entriesOf` | 199, 205 |
| `hasShape` | `SHAPE` (197) |
| `draftItems`, `urlsOf` | 230-247 |
| `reading` | the checks of the loop over the entries (254-277) |
| `place` | what the loop then does with the entry (278-306) |
| `proposedPayerCodeMapsFromDraft` | 224 |

The tables of `toUpperCase` are a parameter.
-/

namespace Recouple.PayerCodes
open Js Packet

/-! ## Untyped values -/

/-- A parsed value. An object lists each of its own properties once. -/
inductive Untyped
  | undefined
  | null
  | str (t : Text)
  /-- A number, a boolean or any other primitive, which `String` writes as `shown`. -/
  | scalar (shown : Text)
  | arr (items : List Untyped)
  | obj (fields : List (Text × Untyped))

mutual
/-- `String(value)`: it throws on an object whose own property hides `Object.prototype.toString`. -/
def stringOf : Untyped → Option Text
  | .undefined => some "undefined".toList
  | .null => some "null".toList
  | .str t => some t
  | .scalar shown => some shown
  | .arr items => (joined items).map fun texts => [','].intercalate texts
  | .obj fields => if "toString".toList ∈ fields.map (·.1) then none else some "[object Object]".toList
/-- The items as `join` writes them: nothing for `null` and `undefined`. -/
def joined : List Untyped → Option (List Text)
  | [] => some []
  | .undefined :: items => (joined items).map ([] :: ·)
  | .null :: items => (joined items).map ([] :: ·)
  | item :: items =>
    match stringOf item, joined items with
    | some text, some texts => some (text :: texts)
    | _, _ => none
end

example : stringOf (.arr [.str "a".toList, .null, .scalar "1".toList]) = some "a,,1".toList := by decide +kernel

abbrev Fields := List (Text × Untyped)

/-- `entry.name` -/
def property (fields : Fields) (name : String) : Untyped := (fields.lookup name.toList).getD .undefined

def record : Untyped → Option Fields
  | .obj fields => some fields
  | _ => none

/-- `record(value)?.name` -/
def propertyOf (value : Option Fields) (name : String) : Untyped :=
  match value with
  | some fields => property fields name
  | none => .undefined

def entriesOf (value : Option Fields) : List Fields :=
  match propertyOf value "entries" with
  | .arr list => list.filterMap record
  | _ => []

/-- `typeof value === 'string' ? value : undefined` -/
def textOf : Untyped → Option Text
  | .str t => some t
  | _ => none

/-! ## Codes -/

def PAYER_CODE_MAX_LENGTH : Nat := 64
def PAYER_CODE_SOURCE_NOTE_MAX_LENGTH : Nat := 500

section
variable (T : CaseTables)

def normalisePayerCode (printed : Text) : Text := T.toUpperCase (collapse (trim printed))

def isStorablePayerCode (code : Text) : Bool :=
  if code = [] ∨ PAYER_CODE_MAX_LENGTH < code.length then false
  else if code.any fun c => decide (c.toNat ≤ 0x1F) || c.toNat == 0x7F then false
  else normalisePayerCode T code == code

end

/-- A run of the class stands at the front, and then the closing character. -/
def runThen (inClass : Char → Bool) (close : Char) (t : Text) : Bool :=
  !(t.takeWhile inClass).isEmpty && (t.dropWhile inClass).head? == some close

/-- `SHAPE` matches at the front of the text. -/
def shapeAt : Text → Bool
  | '#' :: _ => true
  | '<' :: rest => runThen (fun c => c ≠ '<' && c ≠ '>') '>' rest
  | '(' :: rest => runThen (fun c => c == 'm' || c == 'd' || c == 'y') ')' rest
  | _ => false

/-- `SHAPE.test(printed)` -/
def hasShape (printed : Text) : Bool := printed.tails.any shapeAt

example : hasShape "MCB(yyyymmdd)".toList = true ∧ hasShape "NCNS (days)".toList = false := by decide

/-! ## The draft -/

structure ProposedPayerCodeMap where
  printed : Text
  payerCode : Text
  canonicalCode : Text
  sourceNote : Text
deriving DecidableEq

inductive DraftSkipReason
  | unmapped_in_draft
  | not_canonical
  | shape_not_code
  | not_storable
  | conflicting_in_draft
  | repeated_in_draft
deriving DecidableEq

structure SkippedDraftEntry where
  printed : Text
  reason : DraftSkipReason
  detail : Option Text
deriving DecidableEq

structure DraftCodeTable where
  retailerKey : Option Text
  proposed : List ProposedPayerCodeMap
  skipped : List SkippedDraftEntry
deriving DecidableEq

/-- An entry, and the source its table names for it. -/
structure DraftItem where
  entry : Fields
  fallbackSource : Untyped

def draftItems (root : Fields) : List DraftItem :=
  let codeMap := record (property root "code_map")
  let accessorials := record (propertyOf codeMap "freight_accessorials_claimed")
  (entriesOf codeMap).map (fun entry => ⟨entry, .undefined⟩) ++
    (entriesOf accessorials).map fun entry => ⟨entry, propertyOf accessorials "source"⟩

/-- The sources a draft lists with an address: of two with one id the later counts. -/
def urlsOf (root : Fields) : List (Text × Text) :=
  match property root "drafted_from" with
  | .arr items => (items.filterMap fun item => do
      let fields ← record item
      let id ← textOf (property fields "id")
      let source_url ← textOf (property fields "source_url")
      some (id, source_url)).reverse
  | _ => []

def sourceNote (root : Fields) (item : DraftItem) : Text :=
  let spaced (name : String) : Text := ((textOf (property root name)).map (' ' :: ·)).getD []
  let sourceId := ((textOf (property item.entry "source")).map .str).getD item.fallbackSource
  let source := (textOf sourceId).map fun id => ": ".toList ++ ((urlsOf root).lookup id).getD id
  ("Glimpse playbook draft".toList ++ spaced "retailer_key" ++ spaced "version" ++ source.getD []).take
    PAYER_CODE_SOURCE_NOTE_MAX_LENGTH

/-- What the checks make of an entry. -/
inductive Reading
  | ignored
  | skip (skipped : SkippedDraftEntry)
  | code (printed payerCode canonical : Text)

/-- The `TypeError`s: of a draft that is no mapping, and of `String(canonical)`. -/
inductive DraftError
  | notAMapping
  | notPrimitive
deriving DecidableEq

section
variable (T : CaseTables)

def reading (entry : Fields) : Except DraftError Reading :=
  match property entry "printed" with
  | .str printed =>
    match property entry "canonical" with
    | .undefined => .ok (.skip ⟨printed, .unmapped_in_draft, textOf (property entry "why_unmapped")⟩)
    | .null => .ok (.skip ⟨printed, .unmapped_in_draft, textOf (property entry "why_unmapped")⟩)
    | .str canonical =>
      if !isCanonicalReasonCode canonical then .ok (.skip ⟨printed, .not_canonical, some canonical⟩)
      else if hasShape printed then .ok (.skip ⟨printed, .shape_not_code, some canonical⟩)
      else if !isStorablePayerCode T (normalisePayerCode T printed) then .ok (.skip ⟨printed, .not_storable, none⟩)
      else .ok (.code printed (normalisePayerCode T printed) canonical)
    | canonical =>
      match stringOf canonical with
      | some text => .ok (.skip ⟨printed, .not_canonical, some text⟩)
      | none => .error .notPrimitive
  | _ => .ok .ignored

structure DraftState where
  proposed : List ProposedPayerCodeMap
  skipped : List SkippedDraftEntry
  seen : List (Text × Text)
  conflicted : List Text
deriving DecidableEq

def place (root : Fields) (s : DraftState) (item : DraftItem) : Reading → DraftState
  | .ignored => s
  | .skip skipped => { s with skipped := s.skipped ++ [skipped] }
  | .code printed payerCode canonical =>
    match s.seen.lookup payerCode with
    | some earlier =>
      if earlier = canonical then { s with skipped := s.skipped ++ [⟨printed, .repeated_in_draft, none⟩] }
      else { s with
        conflicted := payerCode :: s.conflicted
        skipped := s.skipped ++ [⟨printed, .conflicting_in_draft, some (earlier ++ " and ".toList ++ canonical)⟩] }
    | none => { s with
        seen := s.seen ++ [(payerCode, canonical)]
        proposed := s.proposed ++ [⟨printed, payerCode, canonical, sourceNote root item⟩] }

/-- One turn of the loop. -/
def draftStep (root : Fields) (s : DraftState) (item : DraftItem) : Except DraftError DraftState :=
  (reading T item.entry).map (place root s item)

/-- A code the draft maps two ways is proposed neither way. -/
def tableOf (root : Fields) (s : DraftState) : DraftCodeTable where
  retailerKey := textOf (property root "retailer_key")
  proposed := s.proposed.filter fun row => row.payerCode ∉ s.conflicted
  skipped := s.skipped ++ (s.proposed.filter fun row => row.payerCode ∈ s.conflicted).map fun row =>
    ⟨row.printed, .conflicting_in_draft, none⟩

def proposedPayerCodeMapsFromDraft (draft : Untyped) : Except DraftError DraftCodeTable :=
  match record draft with
  | none => .error .notAMapping
  | some root => ((draftItems root).foldlM (draftStep T root) ⟨[], [], [], []⟩).map (tableOf root)

end

end Recouple.PayerCodes
