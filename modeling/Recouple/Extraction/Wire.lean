import Recouple.Extraction.Paging
import Recouple.Extraction.Schemas
import Recouple.Lib.Tree

/-!
# From wire fields to a document: `packages/extraction/src/wire.ts`

`reassemble` (137-218) writes every field it can read at its path (`setPath`), fills in what was not sent, and
checks the result against the schema. The checks a field has to pass before it is written are `readField`.

The schema check is Zod's. What it looks at is modelled, and its messages are a parameter. A hole of an array
is an empty object here: `reassemble` leaves none.
-/

namespace Recouple.Extraction.Wire
open Js FirstSeen JsonTree

/-! ## Values -/

/-- A number that is an integer or an infinity. (`-0` is `0`: no comparison here tells them apart.) -/
inductive JsInteger
  | finite (v : Int)
  | infinite (negative : Bool)
deriving DecidableEq

inductive FieldValue
  | null
  | text (t : Text)
  | integer (v : JsInteger)
  | boolean (b : Bool)
deriving DecidableEq

/-- `{ value, confidence, source_page, source_quote }` -/
structure FieldRecord where
  value : FieldValue
  confidence : Rat
  source_page : Int
  source_quote : Text
deriving DecidableEq

abbrev Entries := List (Text × Node Text FieldRecord)

/-- `Number` of a sign and digits. -/
def signed (negative : Bool) : WithTop Nat → JsInteger
  | some n => .finite (if negative then -n else n)
  | none => .infinite negative

/-- `Number(cleaned)` where `/^-?\d+$/` matches. -/
def readInteger (cleaned : Text) : Option JsInteger :=
  let negative := cleaned.head? = some '-'
  let digits := if negative then cleaned.tail else cleaned
  if digits ≠ [] ∧ digits.all Char.isDigit then
    some (signed negative (numberOf (Nat.ofDigitChars 10 digits 0)))
  else none

theorem readInteger_eq_some_iff {cleaned : Text} {v : JsInteger} : readInteger cleaned = some v ↔
    ∃ (negative : Bool) (digits : Text), digits ≠ [] ∧ (∀ c ∈ digits, c.isDigit = true) ∧
      cleaned = (if negative then '-' :: digits else digits) ∧
      v = signed negative (numberOf (Nat.ofDigitChars 10 digits 0)) := by
  unfold readInteger
  dsimp only
  constructor
  · intro h
    rw [Option.ite_none_right_eq_some] at h
    obtain ⟨⟨hne, hall⟩, hv⟩ := h
    refine ⟨decide (cleaned.head? = some '-'), _, hne, List.all_eq_true.1 hall, ?_, (Option.some.inj hv).symm⟩
    by_cases hminus : cleaned.head? = some '-'
    · obtain ⟨rest, rfl⟩ := List.head?_eq_some_iff.1 hminus
      rfl
    · simp [hminus]
  · rintro ⟨negative, digits, hne, hd, rfl, rfl⟩
    have hhead : digits.head? ≠ some '-' := fun h => absurd (hd '-' (List.mem_of_mem_head? h)) (by decide)
    have hdigits : digits ≠ [] ∧ digits.all Char.isDigit = true := ⟨hne, List.all_eq_true.2 hd⟩
    cases negative with
    | true => simp [hdigits]
    | false => simp [hhead, hdigits]

section
variable (T : CaseTables)

/-- The value a text is read as, or the problem with it. -/
def coerce (raw : Text) (valueType : ValueType) : Except Text FieldValue :=
  let text := trim raw
  match valueType with
  | .string => .ok (.text text)
  | .integer =>
    match readInteger (text.filter fun c => c ≠ ',' && !isSpace c) with
    | some v => .ok (.integer v)
    | none => .error ('"' :: raw ++ "\" is not a whole number".toList)
  | .boolean =>
    let lowered := T.toLowerCase text
    if lowered ∈ ["true".toList, "yes".toList, "y".toList, "1".toList] then .ok (.boolean true)
    else if lowered ∈ ["false".toList, "no".toList, "n".toList, "0".toList] then .ok (.boolean false)
    else .error ('"' :: raw ++ "\" is not true or false".toList)

def absentField : FieldRecord := ⟨.null, 0, 1, []⟩

def MAX_ROWS_PER_GROUP : Nat := 500

/-! ## Writing at a path -/

/-- `/^([^[]+)\[(\d+)\]$/`: the name and the row number of a segment. -/
def rowSegment (segment : Text) : Option (Text × Nat) :=
  let name := segment.takeWhile (· ≠ '[')
  match segment.dropWhile (· ≠ '[') with
  | [] => none
  | _ :: rest =>
    let digits := rest.takeWhile Char.isDigit
    if name ≠ [] ∧ digits ≠ [] ∧ rest.dropWhile Char.isDigit = [']'] then
      some (name, Nat.ofDigitChars 10 digits 0)
    else none

/-- `path.split('.')` -/
def segments (path : Text) : List Text := path.splitOn '.'

/-- `array[row] = node` -/
def setAt (items : List (Node Text FieldRecord)) (row : Nat) (node : Node Text FieldRecord) :
    List (Node Text FieldRecord) :=
  if row < items.length then items.set row node
  else items ++ List.replicate (row - items.length) (.object []) ++ [node]

/-- The loop of `setPath` over the segments, at one object. -/
def setSegments (value : FieldRecord) : List Text → Entries → Entries
  | [], node => node
  | segment :: rest, node =>
    match rowSegment segment with
    | some (name, row) =>
      let array := Node.itemsOf (get node name)
      put name (.array (setAt array row (.object (setSegments value rest (Node.entriesOf array[row]?))))) node
    | none =>
      if rest = [] then put segment (.leaf value) node
      else put segment (.object (setSegments value rest (Node.entriesOf (get node segment)))) node

def setPath (target : Entries) (path : Text) (value : FieldRecord) : Entries :=
  setSegments value (segments path) target

/-! ## The turns of `reassemble` -/

/-- What the checks of a turn read of a field. -/
structure Reading where
  descriptor : TypedDescriptor
  row : Option Nat
  value : FieldValue
deriving DecidableEq

/-- `byTemplate.get(template)`: of two descriptors with one path the later counts. -/
def descriptorOf (descriptors : List TypedDescriptor) (path : Text) : Option TypedDescriptor :=
  descriptors.reverse.find? fun d => d.path = templatePath path

/-- The row number of a field inside a group, or the problem with it. -/
def rowNumber (descriptor : TypedDescriptor) (path : Text) : Except Text (Option Nat) :=
  match descriptor.group, rowIndexOf path with
  | some group, some index =>
    let problem := "row ".toList ++ showNumber index ++ " is past the ".toList ++ decimal MAX_ROWS_PER_GROUP ++
      "-row cap on ".toList ++ group ++ ": dropped".toList
    match index with
    | some row => if MAX_ROWS_PER_GROUP ≤ row then .error problem else .ok (some row)
    | none => .error problem
  | _, _ => .ok none

/-- The checks of a turn, in their order. -/
def readField (descriptors : List TypedDescriptor) (field : WireField) : Except Text Reading :=
  match descriptorOf descriptors field.path with
  | none => .error "not a field in this document type"
  | some descriptor =>
    if trim field.value = [] then .error "empty value: treated as not present"
    else do
      let row ← rowNumber descriptor field.path
      let value ← coerce T field.value descriptor.valueType
      .ok ⟨descriptor, row, value⟩

/-- What the loop over the wire fields writes to. -/
structure Assembly where
  document : Entries
  issues : List ReassemblyIssue
  seen : List Text
  rowsPerGroup : Text → Nat

def Assembly.start : Assembly := ⟨[], [], [], fun _ => 0⟩

/-- The record a field is written as. -/
def recordOf (field : WireField) (value : FieldValue) : FieldRecord :=
  ⟨value, field.confidence, field.source_page, field.source_quote⟩

/-- One turn over the wire fields. -/
def takeField (descriptors : List TypedDescriptor) (s : Assembly) (field : WireField) : Assembly :=
  match readField T descriptors field with
  | .error problem => { s with issues := s.issues ++ [⟨field.path, problem⟩] }
  | .ok reading =>
    { s with
      document := setPath s.document field.path (recordOf field reading.value)
      seen := s.seen ++ [field.path]
      rowsPerGroup :=
        match reading.descriptor.group, reading.row with
        | some group, some row =>
          Function.update s.rowsPerGroup group (max (s.rowsPerGroup group) (row + 1))
        | _, _ => s.rowsPerGroup }

/-- `absentField()` at a path no field was written at. -/
def fillPath (seen : List Text) (document : Entries) (path : Text) : Entries :=
  if path ∈ seen then document else setPath document path absentField

/-- The paths a descriptor has in a document with so many rows. -/
def concretePaths (rowsPerGroup : Text → Nat) (descriptor : TypedDescriptor) : List Text :=
  match descriptor.group with
  | none => [descriptor.path]
  | some group =>
    let leaf := List.intercalate ['.'] ((segments descriptor.path).drop 1)
    (List.range (rowsPerGroup group)).map fun row => rowPath group (decimal row) leaf

/-- The groups, each once. -/
def groupsOf (descriptors : List TypedDescriptor) : List Text := firstSeen (descriptors.filterMap (·.group))

/-- A group without rows is an empty array. -/
def fillGroup (document : Entries) (group : Text) : Entries :=
  if (get document group).isNone then put group (.array []) document else document

/-- The document of the loops. -/
def assemble (descriptors : List TypedDescriptor) (wireFields : List WireField) : Assembly :=
  let s := wireFields.foldl (takeField T descriptors) Assembly.start
  let filled := (descriptors.flatMap (concretePaths s.rowsPerGroup)).foldl (fillPath s.seen) s.document
  { s with document := (groupsOf descriptors).foldl fillGroup filled }

end

/-! ## The schema check -/

/-- What `z.string()`, `z.number().int()` and `z.boolean()` accept, and `null` where it is allowed. -/
def valueFits (field : FieldSchema) : FieldValue → Bool
  | .null => !field.required
  | .text _ => field.valueType = .string
  | .integer (.finite v) => field.valueType = .integer ∧ -maxSafe ≤ v ∧ v ≤ maxSafe
  | .integer (.infinite _) => false
  | .boolean _ => field.valueType = .boolean

/-- The places of a field record the schema refuses. -/
def recordFaults (field : FieldSchema) (path : Text) : Option (Shape FieldRecord) → List Text
  | some (.leaf record) =>
    (if valueFits field record.value then [] else [path ++ ".value".toList]) ++
      (if -maxSafe ≤ record.source_page ∧ record.source_page ≤ maxSafe then []
        else [path ++ ".source_page".toList])
  | _ => [path]

/-- The places of a document the schema refuses, `issue.path.join('.')` of each. -/
def schemaFaults (schema : DocumentSchema) (document : Node Text FieldRecord) : List Text :=
  schema.properties.flatMap fun property =>
    match property with
    | .field f => recordFaults f f.name (document.find [.key f.name])
    | .array group fields =>
      match document.find [.key group] with
      | some (.array length) => (List.range length).flatMap fun row =>
          let rowName := group ++ '.' :: decimal row
          if document.find [.key group, .index row] = some .object then
            fields.flatMap fun f =>
              recordFaults f (rowName ++ '.' :: f.name) (document.find [.key group, .index row, .key f.name])
          else [rowName]
      | _ => [group]

structure Reassembly where
  document : Node Text FieldRecord
  validated : Bool
  issues : List ReassemblyIssue

/-- `reassemble(wireFields, describeFields(schema), schema)`; `message` is what Zod says of a place. -/
def reassemble (T : CaseTables) (message : Node Text FieldRecord → Text → Text) (schema : DocumentSchema)
    (wireFields : List WireField) : Reassembly :=
  let s := assemble T schema.descriptors wireFields
  let document := Node.object s.document
  let faults := schemaFaults schema document
  { document := document
    validated := faults.isEmpty
    issues := s.issues ++ (faults.take 20).map fun path => ⟨path, message document path⟩ }

end Recouple.Extraction.Wire
