import Mathlib
import Recouple.Extraction.Wire

/-!
# Storing a document as rows and reading it back: `flatten.ts`, `restore.ts`

`flattenExtraction` (flatten.ts 49-90) writes one row for each field with a value and provenance;
`restoreDocument` (restore.ts 97-133) sends the rows through `reassemble` again. A row's box and whether its
quote was found are no part of the document and are left out.

No object of a document has all four properties of a field record, so a tree's leaves are the objects
`isFieldObject` accepts.
-/

namespace Recouple.Extraction.Wire
open Js JsonTree

/-- A stored row, as far as a document is rebuilt from it. -/
structure ExtractedField where
  fieldPath : Text
  value : FieldValue
  confidence : Rat
  sourcePage : Int
  sourceQuote : Text
deriving DecidableEq

def clampConfidence (raw : Rat) : Rat := min 1 (max 0 raw)

/-- The row of a field record; none without a value or without provenance. -/
def fieldRow (record : FieldRecord) (path : Text) : Option ExtractedField :=
  let quote := trim record.source_quote
  if record.value = .null then none
  else if record.source_page < 1 ∨ quote = [] then none
  else some ⟨path, record.value, clampConfidence record.confidence, record.source_page, sliceTo 2000 quote⟩

/-- `${path}[${index}]` -/
def indexPath (path : Text) (index : Nat) : Text := path ++ '[' :: (decimal index ++ [']'])

/-- ``path === '' ? key : `${path}.${key}` `` -/
def keyPath (path key : Text) : Text := if path = [] then key else path ++ '.' :: key

mutual

def walk : Node Text FieldRecord → Text → List ExtractedField
  | .leaf record, path => (fieldRow record path).toList
  | .array items, path => walkItems items path 0
  | .object entries, path => walkEntries entries path

def walkItems : List (Node Text FieldRecord) → Text → Nat → List ExtractedField
  | [], _, _ => []
  | item :: items, path, index => walk item (indexPath path index) ++ walkItems items path (index + 1)

def walkEntries : List (Text × Node Text FieldRecord) → Text → List ExtractedField
  | [], _ => []
  | (key, value) :: entries, path => walk value (keyPath path key) ++ walkEntries entries path

end

def flattenExtraction (document : Node Text FieldRecord) : List ExtractedField := walk document []

/-- `String(value)` of an integer. -/
def showInteger (v : Int) : Text :=
  if v < 0 then '-' :: showNumber (some v.natAbs) else showNumber (some v.natAbs)

def asWireText : FieldValue → Option Text
  | .text t => some t
  | .boolean b => some (if b then "true".toList else "false".toList)
  | .integer (.finite v) => some (showInteger v)
  | _ => none

def typeName : FieldValue → Text
  | .null => "null".toList
  | .text _ => "string".toList
  | .integer _ => "number".toList
  | .boolean _ => "boolean".toList

/-- The wire field of a row whose value the wire format can carry. -/
def wireOf (row : ExtractedField) : Option WireField :=
  (asWireText row.value).map fun text =>
    ⟨row.fieldPath, text, row.confidence, row.sourcePage, row.sourceQuote⟩

def restoreIssue (row : ExtractedField) : Option ReassemblyIssue :=
  if (asWireText row.value).isNone then
    some ⟨row.fieldPath, "stored value of type ".toList ++ typeName row.value ++
      " cannot be read back as a field".toList⟩
  else none

def restoreDocument (T : CaseTables) (message : Node Text FieldRecord → Text → Text) (docType : DocType)
    (rows : List ExtractedField) : Reassembly :=
  let rebuilt := reassemble T message (schemaFor docType) (rows.filterMap wireOf)
  { rebuilt with issues := rows.filterMap restoreIssue ++ rebuilt.issues }

end Recouple.Extraction.Wire
