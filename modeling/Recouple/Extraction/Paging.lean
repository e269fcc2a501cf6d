import Mathlib
import Recouple.Extraction.Paths

/-!
# Reading a document in page ranges: `packages/extraction/src/paging.ts`

The plan (`planPageChunks`, `halveRange`, 55-77) and the join of the replies (`mergeChunkFields`,
239-357). A reply is a flat list of fields; the join sorts the parts by first page, keeps the rows that
start inside their part, renumbers them, and says what it drops.

The `Map`s of the join are functions with the value the source reads for an absent key.
-/

namespace Recouple.Extraction
open Js FirstSeen

/-! ## Planning -/

/-- Pages `first` to `last`, 1-indexed, inclusive. -/
structure PageRange where
  first : Int
  last : Int
deriving DecidableEq

/-- The code takes them as numbers and checks none; here each is a whole one. -/
structure PagingPolicy where
  pagesPerChunk : Int
  maxCalls : Int
  concurrency : Int

/-- `PAGING_POLICY`. -/
def PAGING_POLICY : PagingPolicy := ⟨2, 24, 4⟩

def rangeLabel (range : PageRange) : Text :=
  if range.first = range.last then decimalInt range.first
  else decimalInt range.first ++ '-' :: decimalInt range.last

/-- Every `RangeError` of the module. -/
inductive PagingError
  | noPages (pageCount : Int)
  | partSize (pagesPerChunk : Int)
  | overlap (before after : PageRange)
deriving DecidableEq

def PagingError.message : PagingError → Text
  | .noPages n => "cannot plan a paged read of ".toList ++ decimalInt n ++ " pages".toList
  | .partSize n => "cannot read ".toList ++ decimalInt n ++ " pages a part".toList
  | .overlap a b =>
    "paged read parts overlap: pages ".toList ++ rangeLabel a ++ " and ".toList ++ rangeLabel b

/-- The loop of `planPageChunks` from page `first` on; `fuel` bounds its turns. -/
def planFrom (pageCount pagesPerChunk : Int) : Nat → Int → List PageRange
  | 0, _ => []
  | fuel + 1, first =>
    if first ≤ pageCount then
      ⟨first, min pageCount (first + pagesPerChunk - 1)⟩ ::
        planFrom pageCount pagesPerChunk fuel (first + pagesPerChunk)
    else []

/-- `planPageChunks`: each turn moves at least a page on, so `pageCount` turns are enough. -/
def planPageChunks (pageCount pagesPerChunk : Int) : Except PagingError (List PageRange) :=
  if pageCount < 1 then .error (.noPages pageCount)
  else if pagesPerChunk < 1 then .error (.partSize pagesPerChunk)
  else .ok (planFrom pageCount pagesPerChunk pageCount.toNat 1)

/-- A range cut in two, the first half the larger; `none` for one page. -/
def halveRange (range : PageRange) : Option (PageRange × PageRange) :=
  if range.last ≤ range.first then none
  else
    -- `Math.ceil(n / 2)` of a positive page count
    let middle := range.first + (range.last - range.first + 1 + 1) / 2 - 1
    some (⟨range.first, middle⟩, ⟨middle + 1, range.last⟩)

/-- The repeating groups a document type declares, in declaration order. -/
def repeatingGroupsOf (descriptors : List FieldDescriptor) : List Text :=
  firstSeen (descriptors.filterMap (·.group))

/-! ## Joining -/

/-- One field of a reply. -/
structure WireField where
  path : Text
  value : Text
  confidence : Rat
  source_page : Int
  source_quote : Text
deriving DecidableEq

structure ReassemblyIssue where
  path : Text
  problem : Text
deriving DecidableEq

structure ChunkReading where
  range : PageRange
  fields : List WireField
deriving DecidableEq

structure ChunkMerge where
  fields : List WireField
  issues : List ReassemblyIssue
  kept : List Text
  identicalAtBoundary : List Text
  fragmentsAtBoundary : List Text
  unaccounted : List Text
  rowCounts : List (Text × Nat)
deriving DecidableEq

structure Row where
  index : WithTop Nat
  fields : List WireField
deriving DecidableEq

/-- `lines[12].invoice_number` → `lines[4].invoice_number`. -/
def renumber (path group : Text) (row : Nat) : Text :=
  let tail :=
    match (path.drop (group.length + 1)).dropWhile (· ≠ ']') with
    | [] => path
    | _ :: rest => rest
  group ++ '[' :: (decimal row ++ ']' :: tail)

/-- A row's values by leaf: `invoice_number=A`. -/
def cells (row : Row) (group : Text) : List Text :=
  (row.fields.map fun f => (templatePath f.path).drop (group.length + 3) ++ '=' :: trim f.value).insertionSort
    textLe

def signature (row : Row) (group : Text) : Text := List.intercalate ['|'] (cells row group)

/-- Whether every value `part` prints, `whole` prints too. -/
def printedWithin (part whole : Row) (group : Text) : Bool :=
  (cells part group).all fun cell => cell ∈ cells whole group

/-- The first page a row is cited on. (Rows have fields: `Math.min()` of none does not arise.) -/
def startsOn (row : Row) : Int :=
  match row.fields with
  | [] => 0
  | f :: fs => fs.foldl (fun page f => min page f.source_page) f.source_page

/-- `${group}[${row}]`. -/
def rowLabel (group number : Text) : Text := group ++ '[' :: (number ++ [']'])

structure LastRow where
  row : Row
  range : PageRange
  merged : Nat

structure KeptRow where
  range : PageRange
  row : Row

structure DroppedRow where
  group : Text
  part : Text
  starts : Int
  row : Row

structure DroppedHeader where
  path : Text
  part : Text

/-- Everything the loops of the join write to. -/
structure Joining where
  fields : List WireField
  issues : List ReassemblyIssue
  kept : List Text
  identicalAtBoundary : List Text
  fragmentsAtBoundary : List Text
  offsets : Text → Nat
  lastRowOf : Text → Option LastRow
  keptRows : Text → List KeptRow
  droppedRows : List DroppedRow
  headerPaths : List Text
  droppedHeader : List DroppedHeader

def Joining.start : Joining := ⟨[], [], [], [], [], fun _ => 0, fun _ => none, fun _ => [], [], [], []⟩

/-- `groupOf.get(templatePath(path))`: of two descriptors with one path the later counts. -/
def groupOf (descriptors : List FieldDescriptor) (path : Text) : Option Text :=
  (descriptors.reverse.find? fun d => d.path = templatePath path).bind (·.group)

/-- The group and row a field belongs to; `none` outside every row. -/
def rowOf (descriptors : List FieldDescriptor) (path : Text) : Option (Text × WithTop Nat) :=
  (groupOf descriptors path).bind fun group => (rowIndexOf path).map fun index => (group, index)

/-- `rows.get(index) ?? { index, fields: [] }`, with the field pushed. -/
def pushField (index : WithTop Nat) (field : WireField) : List Row → List Row
  | [] => [⟨index, [field]⟩]
  | row :: rows =>
    if row.index = index then { row with fields := row.fields ++ [field] } :: rows
    else row :: pushField index field rows

def partLabel (range : PageRange) : Text := "part ".toList ++ rangeLabel range

/-- A field outside the rows: the part with page 1 reports it, any other part drops it. -/
def takeHeader (range : PageRange) (s : Joining) (field : WireField) : Joining :=
  if range.first = 1 then
    { s with fields := s.fields ++ [field], headerPaths := s.headerPaths ++ [field.path] }
  else
    { s with
      issues := s.issues ++
        [{ path := field.path
           problem := "reported by ".toList ++ partLabel range ++
            "; only the part with page 1 reports fields outside a repeating group: dropped".toList }]
      droppedHeader := s.droppedHeader ++ [⟨field.path, partLabel range⟩] }

/-- One turn over the fields of a part: `rowsByGroup` is the second component. -/
def takeField (descriptors : List FieldDescriptor) (range : PageRange)
    (s : Joining × (Text → List Row)) (field : WireField) : Joining × (Text → List Row) :=
  match rowOf descriptors field.path with
  | some (group, index) => (s.1, Function.update s.2 group (pushField index field (s.2 group)))
  | none => (takeHeader range s.1 field, s.2)

def dropRow (group : Text) (range : PageRange) (s : Joining) (row : Row) : Joining :=
  { s with
    issues := s.issues ++
      [{ path := rowLabel group (showNumber row.index)
         problem := partLabel range ++ " reported a row that starts on page ".toList ++
          decimalInt (startsOn row) ++ ", outside its pages: dropped".toList }]
    droppedRows := s.droppedRows ++ [⟨group, partLabel range, startsOn row, row⟩] }

/-- Two rows either side of a part boundary, the first row this part keeps and the last kept before. -/
def boundary (group : Text) (range : PageRange) (keptHere : Nat) (s : Joining) : Option LastRow :=
  if keptHere = 0 then (s.lastRowOf group).filter fun previous => previous.range.first ≠ range.first
  else none

def keepRow (group : Text) (range : PageRange) (keptHere : Nat) (s : Joining) (row : Row) : Joining :=
  let merged := s.offsets group
  let previous := boundary group range keptHere s
  let identical := previous.filter fun p => signature p.row group = signature row group
  let fragment := previous.filter fun p =>
    signature p.row group ≠ signature row group ∧ printedWithin row p.row group
  { s with
    fields := s.fields ++ row.fields.map fun f => { f with path := renumber f.path group merged }
    identicalAtBoundary := s.identicalAtBoundary ++ identical.toList.map fun p =>
      rowLabel group (decimal p.merged) ++ '=' :: rowLabel group (decimal merged)
    fragmentsAtBoundary := s.fragmentsAtBoundary ++ fragment.toList.map fun p =>
      rowLabel group (decimal merged) ++ '⊂' :: rowLabel group (decimal p.merged)
    offsets := Function.update s.offsets group (merged + 1)
    lastRowOf := Function.update s.lastRowOf group (some ⟨row, range, merged⟩)
    keptRows := Function.update s.keptRows group (s.keptRows group ++ [⟨range, row⟩]) }

/-- Whether the row starts inside the part. -/
def startsInside (range : PageRange) (row : Row) : Bool :=
  decide (range.first ≤ startsOn row) && decide (startsOn row ≤ range.last)

/-- One turn over the rows of a group; the second component is `keptHere`. -/
def takeRow (group : Text) (range : PageRange) (s : Joining × Nat) (row : Row) : Joining × Nat :=
  if startsInside range row then (keepRow group range s.2 s.1 row, s.2 + 1)
  else (dropRow group range s.1 row, s.2)

/-- `(a, b) => a.index - b.index`. -/
def rowLe (a b : Row) : Prop := a.index ≤ b.index

instance : DecidableRel rowLe := fun a b => inferInstanceAs (Decidable (a.index ≤ b.index))

/-- One turn over the groups. -/
def takeGroup (range : PageRange) (rowsByGroup : Text → List Row) (s : Joining) (group : Text) : Joining :=
  let taken := ((rowsByGroup group).insertionSort rowLe).foldl (takeRow group range) (s, 0)
  { taken.1 with
    kept := taken.1.kept ++ [group ++ ' ' :: rangeLabel range ++ ':' :: decimal taken.2] }

/-- One turn over the parts. -/
def takeChunk (descriptors : List FieldDescriptor) (s : Joining) (chunk : ChunkReading) : Joining :=
  let read := chunk.fields.foldl (takeField descriptors chunk.range) (s, fun _ => [])
  (repeatingGroupsOf descriptors).foldl (takeGroup chunk.range read.2) read.1

def chunkLe (a b : ChunkReading) : Prop := a.range.first ≤ b.range.first

instance : DecidableRel chunkLe :=
  fun a b => inferInstanceAs (Decidable (a.range.first ≤ b.range.first))

/-- The first two neighbours that overlap. -/
def firstOverlap : List ChunkReading → Option (PageRange × PageRange)
  | before :: after :: rest =>
    if after.range.first ≤ before.range.last then some (before.range, after.range)
    else firstOverlap (after :: rest)
  | _ => none

/-- What the join dropped and no kept reading accounts for. -/
def unaccountedOf (s : Joining) : List Text :=
  (s.droppedRows.filter fun d =>
      !((s.keptRows d.group).filter fun k => decide (k.range.first ≤ d.starts) && decide (d.starts ≤ k.range.last)).any
        fun k => printedWithin d.row k.row d.group).map
    (fun d => rowLabel d.group (showNumber d.row.index) ++ " of ".toList ++ d.part ++ " (page ".toList ++
      decimalInt d.starts ++ [')']) ++
  (s.droppedHeader.filter fun d => !decide (d.path ∈ s.headerPaths)).map
    fun d => d.path ++ " of ".toList ++ d.part

def mergeChunkFields (chunks : List ChunkReading) (descriptors : List FieldDescriptor) :
    Except PagingError ChunkMerge :=
  let ordered := chunks.insertionSort chunkLe
  match firstOverlap ordered with
  | some (before, after) => .error (.overlap before after)
  | none =>
    let s := ordered.foldl (takeChunk descriptors) Joining.start
    .ok
      { fields := s.fields
        issues := s.issues
        kept := s.kept
        identicalAtBoundary := s.identicalAtBoundary
        fragmentsAtBoundary := s.fragmentsAtBoundary
        unaccounted := unaccountedOf s
        rowCounts := (repeatingGroupsOf descriptors).map fun g => (g, s.offsets g) }

end Recouple.Extraction
