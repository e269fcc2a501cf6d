import Recouple.Lib.Double
import Recouple.Lib.KeyedFold
import Recouple.Lib.Number

/-!
# A TIFF's pages: `tiff.ts`

| here | there |
| --- | --- |
| `u16`, `u32` | the `DataView`'s readers, which throw a `RangeError` past the bytes |
| `readPage` | one turn of the loop of `inspectTiff`, past the checks on the offset |
| `walk` | the loop, with the offsets of the pages it reads |
| `inspectTiff` | `inspectTiff` |

* **`inspect_tiff_bounded`**: whatever the bytes, the walk ends, reads each page once and no more than the limit of them,
  never reads outside the bytes, and gives pages whose pixels are within both caps and are summed exactly.

Numbers are doubles: a product of two of the file's numbers and a sum of pixels are rounded (`toDouble`).
-/

namespace Recouple.Ingest
open Js KeyedFold

/-! ## The reader -/

inductive RejectionCode
  | contentDoesNotMatchType
  | decompressionBomb
deriving DecidableEq

/-- What `inspectTiff` may throw: the named refusal, or the `RangeError` of a read outside the bytes. -/
inductive TiffError
  | rejected (code : RejectionCode) (message : Text)
  | outside
deriving DecidableEq

def malformed (detail : Text) : TiffError :=
  .rejected .contentDoesNotMatchType ("the TIFF is malformed: ".toList ++ detail)

structure TiffResolution where
  x : ℚ
  y : ℚ
deriving DecidableEq

structure TiffPage where
  width : Nat
  length : Nat
  dpi : Option TiffResolution
  aspect : Option ℚ
deriving DecidableEq

structure TiffInspection where
  littleEndian : Bool
  pages : List TiffPage
  totalPixels : Nat
deriving DecidableEq

/-- The limits; no page limit is `Infinity`. The pixel caps are safe integers. -/
structure TiffLimits where
  maxPages : Option Nat
  maxPagePixels : Option Nat
  maxTotalPixels : Option Nat
  page_safe : ∀ cap ∈ maxPagePixels, (cap : Int) ≤ maxSafe
  total_safe : ∀ cap ∈ maxTotalPixels, (cap : Int) ≤ maxSafe

/-- `limits.maxPagePixels ?? MAX_TIFF_PAGE_PIXELS` -/
def TiffLimits.pagePixels (limits : TiffLimits) : Nat := limits.maxPagePixels.getD 50000000

/-- `limits.maxTotalPixels ?? MAX_TIFF_TOTAL_PIXELS` -/
def TiffLimits.totalPixels (limits : TiffLimits) : Nat := limits.maxTotalPixels.getD 400000000

/-- `isClassicTiff` -/
def isClassicTiff (bytes : List UInt8) : Bool :=
  decide (8 ≤ bytes.length) &&
    (bytes.take 4 == [0x49, 0x49, 0x2a, 0x00] || bytes.take 4 == [0x4d, 0x4d, 0x00, 0x2a])

section
variable (bytes : List UInt8) (littleEndian : Bool)

def byteAt (place : Nat) : Except TiffError Nat :=
  match bytes[place]? with
  | some byte => .ok byte.toNat
  | none => .error .outside

def u16 (place : Nat) : Except TiffError Nat := do
  let a ← byteAt bytes place
  let b ← byteAt bytes (place + 1)
  return if littleEndian then a + 0x100 * b else 0x100 * a + b

def u32 (place : Nat) : Except TiffError Nat := do
  let a ← u16 bytes littleEndian place
  let b ← u16 bytes littleEndian (place + 2)
  return if littleEndian then a + 0x10000 * b else 0x10000 * a + b

/-- `at + length <= bytes.length`; an offset is never negative. -/
def within (place length : Nat) : Bool := place + length ≤ bytes.length

/-- What a page's entries say so far. -/
structure PageFields where
  width : Option Nat
  length : Option Nat
  xres : Option ℚ
  yres : Option ℚ
  unit : Nat

/-- A quotient or a product of doubles, as a double; none of the file's is past the largest. -/
def asDouble (x : ℚ) : ℚ := (roundDouble x).getD 0

/-- `scalar()`, of the entry at this place. -/
def scalar (entry type valueCount : Nat) : Except TiffError (Option Nat) :=
  if valueCount < 1 then .ok none
  else if type = 3 then do
    let value ← u16 bytes littleEndian (entry + 8)
    return some value
  else if type = 4 then do
    let value ← u32 bytes littleEndian (entry + 8)
    return some value
  else .ok none

/-- `rational()` -/
def rational (entry type valueCount : Nat) : Except TiffError (Option ℚ) :=
  if type ≠ 5 ∨ valueCount < 1 then .ok none
  else do
    let place ← u32 bytes littleEndian (entry + 8)
    if within bytes place 8 = false then throw (malformed "a resolution points outside the file".toList)
    let numerator ← u32 bytes littleEndian place
    let denominator ← u32 bytes littleEndian (place + 4)
    return if denominator = 0 ∨ numerator = 0 then none else some (asDouble ((numerator : ℚ) / denominator))

/-- One turn of the loop over a page's entries. -/
def readEntry (fields : PageFields) (entry : Nat) : Except TiffError PageFields := do
  let tag ← u16 bytes littleEndian entry
  let type ← u16 bytes littleEndian (entry + 2)
  let valueCount ← u32 bytes littleEndian (entry + 4)
  if tag = 256 then
    let width ← scalar bytes littleEndian entry type valueCount
    return { fields with width := width }
  else if tag = 257 then
    let length ← scalar bytes littleEndian entry type valueCount
    return { fields with length := length }
  else if tag = 282 then
    let xres ← rational bytes littleEndian entry type valueCount
    return { fields with xres := xres }
  else if tag = 283 then
    let yres ← rational bytes littleEndian entry type valueCount
    return { fields with yres := yres }
  else if tag = 296 then
    let unit ← scalar bytes littleEndian entry type valueCount
    return { fields with unit := unit.getD fields.unit }
  else return fields

/-- The page its entries describe. -/
def pageOf (width length : Nat) (fields : PageFields) : TiffPage where
  width := width
  length := length
  dpi := do
    let x ← fields.xres
    let y ← fields.yres
    let perInch ← if fields.unit = 2 then some 1 else if fields.unit = 3 then some (asDouble 2.54) else none
    return ⟨asDouble (x * perInch), asDouble (y * perInch)⟩
  aspect := do
    let x ← fields.xres
    let y ← fields.yres
    return asDouble (x / y)

/-- One turn of the loop over the pages, past the checks on the offset: the page, the pixels so far and the next
offset. `number` is the page's, from one. -/
def readPage (limits : TiffLimits) (number totalPixels offset : Nat) : Except TiffError (TiffPage × Nat × Nat) := do
  let count ← u16 bytes littleEndian offset
  if count = 0 then throw (malformed "a page has no entries".toList)
  if within bytes (offset + 2) (count * 12 + 4) = false then
    throw (malformed "a page runs past the end of the file".toList)
  let entries := (List.range count).map fun i => offset + 2 + i * 12
  let fields ← entries.foldlM (readEntry bytes littleEndian) ⟨none, none, none, none, 2⟩
  let width := fields.width.getD 0
  let length := fields.length.getD 0
  if width = 0 ∨ length = 0 then
    throw (malformed ("page ".toList ++ decimal number ++ " names no width or length".toList))
  let pixels := toDouble (width * length)
  if limits.pagePixels < pixels then
    throw (.rejected .decompressionBomb ("page ".toList ++ decimal number ++ " of the TIFF is ".toList ++
      decimal width ++ " × ".toList ++ decimal length ++ " pixels, over the ".toList ++ decimal limits.pagePixels ++
      " pixel limit".toList))
  let total := toDouble (totalPixels + pixels)
  if limits.totalPixels < total then
    throw (.rejected .decompressionBomb ("the TIFF's pages total more than ".toList ++ decimal limits.totalPixels ++
      " pixels".toList))
  let next ← u32 bytes littleEndian (offset + 2 + count * 12)
  return (pageOf width length fields, total, next)

/-- How many offsets of the file are not visited yet. -/
def unvisited (visited : List Nat) : Nat := ((List.range bytes.length).filter fun o => !visited.contains o).length

theorem unvisited_cons {visited : List Nat} {offset : Nat} (hnew : offset ∉ visited)
    (hinside : within bytes offset 2 = true) : unvisited bytes (offset :: visited) < unvisited bytes visited := by
  have hmem : offset ∈ (List.range bytes.length).filter fun o => !visited.contains o := by
    have : offset + 2 ≤ bytes.length := by simpa [within] using hinside
    simp [hnew]
    omega
  have hless : (List.range bytes.length).filter (fun o => !(offset :: visited).contains o) =
      ((List.range bytes.length).filter fun o => !visited.contains o).filter (· != offset) := by
    rw [List.filter_filter]
    congr 1
    funext o
    by_cases ho : o = offset <;> simp [ho]
  unfold unvisited
  rw [hless]
  exact List.length_filter_lt_length_iff_exists.2 ⟨offset, hmem, by simp⟩

/-- The loop over the pages, with the offsets of those it reads. -/
def walk (limits : TiffLimits) (pages : List TiffPage) (visited : List Nat) (totalPixels offset : Nat) :
    List Nat × Except TiffError (List TiffPage × Nat) :=
  if offset = 0 then ([], .ok (pages, totalPixels))
  else if _hnew : offset ∈ visited then ([], .error (malformed "its page chain loops".toList))
  else if limits.maxPages.any (· ≤ pages.length) then
    ([], .error (.rejected .decompressionBomb
      ("the TIFF has more than ".toList ++ decimal (limits.maxPages.getD 0) ++ " pages".toList)))
  else if _hinside : offset < 8 ∨ within bytes offset 2 = false then
    ([], .error (malformed "a page offset points outside the file".toList))
  else
    match readPage bytes littleEndian limits (pages.length + 1) totalPixels offset with
    | .error e => ([offset], .error e)
    | .ok (page, total, next) =>
      let rest := walk limits (pages ++ [page]) (offset :: visited) total next
      (offset :: rest.1, rest.2)
termination_by unvisited bytes visited
decreasing_by
  rw [not_or, Bool.not_eq_false] at _hinside
  exact unvisited_cons bytes _hnew _hinside.2

end

/-- `inspectTiff`, with the offsets of the pages it reads. -/
def inspectRun (bytes : List UInt8) (limits : TiffLimits) : List Nat × Except TiffError TiffInspection :=
  if isClassicTiff bytes = false then ([], .error (malformed "it does not begin with a classic TIFF header".toList))
  else
    let littleEndian := bytes[0]? = some 0x49
    match u32 bytes littleEndian 4 with
    | .error e => ([], .error e)
    | .ok offset =>
      if offset = 0 then ([], .error (malformed "it has no pages".toList))
      else
        let run := walk bytes littleEndian limits [] [] 0 offset
        (run.1, run.2.map fun found => ⟨littleEndian, found.1, found.2⟩)

/-- `inspectTiff` -/
def inspectTiff (bytes : List UInt8) (limits : TiffLimits) : Except TiffError TiffInspection :=
  (inspectRun bytes limits).2

/-! ## Reads within the bytes -/

/-- The computation does not read outside the bytes. -/
def Inside {α : Type} (x : Except TiffError α) : Prop := x ≠ .error .outside

section
variable {α β : Type} {x : Except TiffError α} {f : α → Except TiffError β}

theorem Inside.ok (a : α) : Inside (.ok a : Except TiffError α) := nofun

theorem Inside.rejected (code : RejectionCode) (message : Text) :
    Inside (.error (.rejected code message) : Except TiffError α) := nofun

theorem Inside.bind (hx : Inside x) (hf : ∀ a, x = .ok a → Inside (f a)) : Inside (x >>= f) := by
  intro h
  rcases bind_error h with h | ⟨a, ha, h⟩
  · exact hx h
  · exact hf a ha h

theorem Inside.refuse {p : Prop} [Decidable p] {detail : Text} (hx : ¬ p → Inside x) :
    Inside (if p then throw (malformed detail) else x) := by
  split
  case isTrue => exact Inside.rejected _ _
  case isFalse h => exact hx h

theorem Inside.foldlM {σ : Type} {g : σ → α → Except TiffError σ} {l : List α}
    (h : ∀ s, ∀ a ∈ l, Inside (g s a)) (s : σ) : Inside (l.foldlM g s) := by
  induction l generalizing s with
  | nil => exact Inside.ok s
  | cons a l ih =>
    rw [List.foldlM_cons]
    exact (h s a (by simp)).bind fun s' _ => ih (fun s a ha => h s a (by simp [ha])) s'

end

section
variable {bytes : List UInt8} {littleEndian : Bool} {limits : TiffLimits}

theorem inside_u16 {place : Nat} (h : place + 2 ≤ bytes.length) : Inside (u16 bytes littleEndian place) := by
  have hbyte : ∀ i < bytes.length, Inside (byteAt bytes i) := by
    intro i hi
    rw [byteAt, List.getElem?_eq_getElem hi]
    exact Inside.ok _
  exact (hbyte place (by omega)).bind fun _ _ => (hbyte (place + 1) (by omega)).bind fun _ _ => Inside.ok _

theorem inside_u32 {place : Nat} (h : place + 4 ≤ bytes.length) : Inside (u32 bytes littleEndian place) :=
  (inside_u16 (by omega)).bind fun _ _ => (inside_u16 (by omega)).bind fun _ _ => Inside.ok _

theorem inside_scalar {entry type valueCount : Nat} (h : entry + 12 ≤ bytes.length) :
    Inside (scalar bytes littleEndian entry type valueCount) := by
  unfold scalar
  split
  · exact Inside.ok _
  · split
    · exact (inside_u16 (by omega)).bind fun _ _ => Inside.ok _
    · split
      · exact (inside_u32 (by omega)).bind fun _ _ => Inside.ok _
      · exact Inside.ok _

theorem inside_rational {entry type valueCount : Nat} (h : entry + 12 ≤ bytes.length) :
    Inside (rational bytes littleEndian entry type valueCount) := by
  unfold rational
  split
  · exact Inside.ok _
  · refine (inside_u32 (by omega)).bind fun place _ => Inside.refuse fun hinside => ?_
    have hplace : place + 8 ≤ bytes.length := by simpa [within] using hinside
    exact (inside_u32 (by omega)).bind fun _ _ => (inside_u32 (by omega)).bind fun _ _ => Inside.ok _

theorem inside_readEntry {entry : Nat} (h : entry + 12 ≤ bytes.length) (fields : PageFields) :
    Inside (readEntry bytes littleEndian fields entry) := by
  unfold readEntry
  refine (inside_u16 (by omega)).bind fun tag _ => (inside_u16 (by omega)).bind fun type _ =>
    (inside_u32 (by omega)).bind fun valueCount _ => ?_
  split
  · exact (inside_scalar h).bind fun _ _ => Inside.ok _
  · split
    · exact (inside_scalar h).bind fun _ _ => Inside.ok _
    · split
      · exact (inside_rational h).bind fun _ _ => Inside.ok _
      · split
        · exact (inside_rational h).bind fun _ _ => Inside.ok _
        · split
          · exact (inside_scalar h).bind fun _ _ => Inside.ok _
          · exact Inside.ok _

theorem inside_readPage {number totalPixels offset : Nat} (h : offset + 2 ≤ bytes.length) :
    Inside (readPage bytes littleEndian limits number totalPixels offset) := by
  unfold readPage
  refine (inside_u16 h).bind fun count _ => Inside.refuse fun _ => Inside.refuse fun hinside => ?_
  have hpage : offset + 2 + (count * 12 + 4) ≤ bytes.length := by simpa [within] using hinside
  have hentries : ∀ fields : PageFields, ∀ entry ∈ (List.range count).map fun i => offset + 2 + i * 12,
      Inside (readEntry bytes littleEndian fields entry) := by
    intro fields entry hentry
    obtain ⟨i, hi, rfl⟩ := List.mem_map.1 hentry
    have hi := List.mem_range.1 hi
    exact inside_readEntry (by omega) fields
  refine (Inside.foldlM hentries _).bind fun fields _ => Inside.refuse fun _ => ?_
  dsimp only
  split
  · exact Inside.rejected _ _
  · split
    · exact Inside.rejected _ _
    · exact (inside_u32 (by omega)).bind fun _ _ => Inside.ok _

/-! ## What a page adds -/

/-- A page has a size, and no more pixels than its cap. -/
structure Sized (limits : TiffLimits) (page : TiffPage) : Prop where
  width : 0 < page.width
  length : 0 < page.length
  pixels : page.width * page.length ≤ limits.pagePixels

/-- The pixels of some pages. -/
def pixelsOf (pages : List TiffPage) : Nat := (pages.map fun page => page.width * page.length).sum

theorem TiffLimits.pagePixels_safe (limits : TiffLimits) : limits.pagePixels < 2 ^ 53 := by
  unfold TiffLimits.pagePixels
  cases hcap : limits.maxPagePixels with
  | none => decide
  | some cap =>
    have := limits.page_safe cap hcap
    unfold maxSafe at this
    show cap < 2 ^ 53
    omega

theorem TiffLimits.totalPixels_safe (limits : TiffLimits) : limits.totalPixels < 2 ^ 53 := by
  unfold TiffLimits.totalPixels
  cases hcap : limits.maxTotalPixels with
  | none => decide
  | some cap =>
    have := limits.total_safe cap hcap
    unfold maxSafe at this
    show cap < 2 ^ 53
    omega

/-- A double within a cap is the number it was rounded from. -/
theorem toDouble_eq_of_le {n cap : Nat} (hcap : cap < 2 ^ 53) (h : toDouble n ≤ cap) : toDouble n = n := by
  apply toDouble_of_lt
  by_contra hlarge
  have := le_toDouble (Nat.le_of_not_lt hlarge)
  omega

theorem readPage_ok {number totalPixels offset next total : Nat} {page : TiffPage}
    (h : readPage bytes littleEndian limits number totalPixels offset = .ok (page, total, next)) :
    Sized limits page ∧ total = totalPixels + page.width * page.length ∧ total ≤ limits.totalPixels := by
  unfold readPage at h
  obtain ⟨count, -, h⟩ := bind_ok.1 h
  obtain ⟨-, h⟩ := throw_if_ok.1 h
  obtain ⟨-, h⟩ := throw_if_ok.1 h
  obtain ⟨fields, -, h⟩ := bind_ok.1 h
  obtain ⟨hsize, h⟩ := throw_if_ok.1 h
  obtain ⟨hpage, h⟩ := throw_if_ok.1 h
  obtain ⟨htotal, h⟩ := throw_if_ok.1 h
  obtain ⟨next', -, h⟩ := bind_ok.1 h
  obtain ⟨rfl, rfl, rfl⟩ := Except.ok.inj h
  rw [not_or] at hsize
  have hpixels := toDouble_eq_of_le limits.pagePixels_safe (Nat.le_of_not_lt hpage)
  have hsum := toDouble_eq_of_le limits.totalPixels_safe (Nat.le_of_not_lt htotal)
  rw [hpixels] at hpage hsum
  refine ⟨⟨Nat.pos_of_ne_zero hsize.1, Nat.pos_of_ne_zero hsize.2, Nat.le_of_not_lt hpage⟩, ?_, Nat.le_of_not_lt htotal⟩
  rw [hpixels, hsum]
  rfl

/-! ## The walk -/

/-- What the walk keeps of the pages read so far. -/
structure Kept (limits : TiffLimits) (pages : List TiffPage) (totalPixels : Nat) : Prop where
  sized : ∀ page ∈ pages, Sized limits page
  exact : totalPixels = pixelsOf pages
  within : totalPixels ≤ limits.totalPixels

theorem Kept.concat {pages : List TiffPage} {page : TiffPage} {totalPixels total : Nat}
    (h : Kept limits pages totalPixels) (hpage : Sized limits page)
    (htotal : total = totalPixels + page.width * page.length) (hwithin : total ≤ limits.totalPixels) :
    Kept limits (pages ++ [page]) total where
  sized := by
    intro p hp
    rcases List.mem_append.1 hp with hp | hp
    · exact h.sized p hp
    · rwa [List.mem_singleton.1 hp]
  exact := by
    rw [htotal, h.exact]
    simp [pixelsOf]
  within := hwithin

/-- What is asked of a run from these pages and these visited offsets. -/
structure WalkBounded (limits : TiffLimits) (pages : List TiffPage) (visited : List Nat)
    (run : List Nat × Except TiffError (List TiffPage × Nat)) : Prop where
  inside : Inside run.2
  result : ∀ found, run.2 = .ok found → Kept limits found.1 found.2 ∧ pages <+: found.1
  once : run.1.Nodup ∧ ∀ offset ∈ run.1, offset ∉ visited
  limited : ∀ limit ∈ limits.maxPages, pages.length ≤ limit → run.1.length + pages.length ≤ limit

theorem WalkBounded.refused {pages : List TiffPage} {visited : List Nat} (code : RejectionCode) (message : Text) :
    WalkBounded limits pages visited ([], .error (.rejected code message)) where
  inside := Inside.rejected _ _
  result found h := by cases h
  once := ⟨List.nodup_nil, fun offset h => (by cases h)⟩
  limited limit _ h := by simpa using h

theorem walk_bounded (pages : List TiffPage) (visited : List Nat) (totalPixels offset : Nat)
    (h : Kept limits pages totalPixels) :
    WalkBounded limits pages visited (walk bytes littleEndian limits pages visited totalPixels offset) := by
  induction hn : unvisited bytes visited using Nat.strong_induction_on generalizing pages visited totalPixels offset with
  | h n ih =>
    subst hn
    rw [walk]
    split
    case isTrue =>
      exact
        { inside := Inside.ok _
          result := fun found hfound => by
            obtain rfl := Except.ok.inj hfound
            exact ⟨h, List.prefix_rfl⟩
          once := ⟨List.nodup_nil, fun offset hmem => (by cases hmem)⟩
          limited := fun limit _ hle => by simpa using hle }
    case isFalse =>
      split
      case isTrue => exact WalkBounded.refused _ _
      case isFalse hnew =>
        split
        case isTrue => exact WalkBounded.refused _ _
        case isFalse hlimit =>
          split
          case isTrue => exact WalkBounded.refused _ _
          case isFalse hinside =>
            rw [not_or, Bool.not_eq_false] at hinside
            have hoffset : offset + 2 ≤ bytes.length := by simpa [within] using hinside.2
            have hroom : ∀ limit ∈ limits.maxPages, pages.length < limit := by
              intro limit hmem
              by_contra hfull
              refine hlimit ?_
              rw [hmem]
              simpa using hfull
            cases hpage : readPage bytes littleEndian limits (pages.length + 1) totalPixels offset with
            | error e =>
              exact
                { inside := fun herror => by
                    rw [Except.error.inj herror] at hpage
                    exact inside_readPage hoffset hpage
                  result := fun found hfound => by cases hfound
                  once := ⟨List.nodup_singleton _, fun o ho => by rwa [List.mem_singleton.1 ho]⟩
                  limited := fun limit hmem _ => by
                    have := hroom limit hmem
                    rw [List.length_singleton]
                    omega }
            | ok found =>
              obtain ⟨page, total, next⟩ := found
              obtain ⟨hsized, htotal, hwithin⟩ := readPage_ok hpage
              have hrest := ih (unvisited bytes (offset :: visited)) (unvisited_cons bytes hnew hinside.2)
                (pages ++ [page]) (offset :: visited) total next (h.concat hsized htotal hwithin) rfl
              exact
                { inside := hrest.inside
                  result := fun found hfound => by
                    obtain ⟨hkept, hprefix⟩ := hrest.result found hfound
                    exact ⟨hkept, (List.prefix_append _ _).trans hprefix⟩
                  once := by
                    obtain ⟨hnodup, hfresh⟩ := hrest.once
                    refine ⟨List.nodup_cons.2 ⟨fun hmem => hfresh offset hmem List.mem_cons_self, hnodup⟩, ?_⟩
                    intro o ho
                    rcases List.mem_cons.1 ho with rfl | ho
                    · exact hnew
                    · exact fun hmem => hfresh o ho (List.mem_cons_of_mem _ hmem)
                  limited := fun limit hmem _ => by
                    have hlonger := hrest.limited limit hmem (by
                      have := hroom limit hmem
                      rw [List.length_append, List.length_singleton]
                      omega)
                    rw [List.length_append, List.length_singleton] at hlonger
                    rw [List.length_cons]
                    omega }

/-- A walk from a page gives a page. -/
theorem walk_ne_nil {totalPixels offset : Nat} {found : List TiffPage × Nat} (hoffset : offset ≠ 0)
    (h0 : Kept limits [] totalPixels)
    (h : (walk bytes littleEndian limits [] [] totalPixels offset).2 = .ok found) : found.1 ≠ [] := by
  rw [walk, if_neg hoffset, dif_neg List.not_mem_nil] at h
  split at h
  · cases h
  · split at h
    · cases h
    · cases hpage : readPage bytes littleEndian limits (([] : List TiffPage).length + 1) totalPixels offset with
      | error e =>
        rw [hpage] at h
        cases h
      | ok first =>
        obtain ⟨page, total, next⟩ := first
        rw [hpage] at h
        obtain ⟨hsized, htotal, hwithin⟩ := readPage_ok hpage
        have hbounded := @walk_bounded bytes littleEndian limits ([] ++ [page]) [offset] total next
          (h0.concat hsized htotal hwithin)
        obtain ⟨rest, hrest⟩ := (hbounded.result found h).2
        rw [← hrest]
        simp

end

/-! ## The inspection -/

/-- What is asked of an inspection. -/
structure Bounded (limits : TiffLimits) (run : List Nat × Except TiffError TiffInspection) : Prop where
  once : run.1.Nodup
  limited : ∀ limit ∈ limits.maxPages, run.1.length ≤ limit
  refuses : ∀ e, run.2 = .error e → ∃ code message, e = .rejected code message
  returns : ∀ inspection, run.2 = .ok inspection → inspection.pages ≠ [] ∧
    (∀ page ∈ inspection.pages, 0 < page.width ∧ 0 < page.length ∧ page.width * page.length ≤ limits.pagePixels) ∧
    inspection.totalPixels = (inspection.pages.map fun page => page.width * page.length).sum ∧
    inspection.totalPixels ≤ limits.totalPixels

theorem Bounded.refused {limits : TiffLimits} (code : RejectionCode) (message : Text) :
    Bounded limits ([], .error (.rejected code message)) where
  once := List.nodup_nil
  limited limit _ := Nat.zero_le _
  refuses e h := ⟨code, message, (Except.error.inj h).symm⟩
  returns inspection h := by cases h

/-- **Whatever the bytes, the inspection is bounded and exact**: the pages it reads are different offsets and within the
limit, it throws nothing but its refusals, and what it returns is at least one page, each with its pixels within the
cap, and their exact sum within the other. -/
theorem inspect_tiff_bounded (bytes : List UInt8) (limits : TiffLimits) :
    ∃ read, inspectRun bytes limits = (read, inspectTiff bytes limits) ∧ Bounded limits (read, inspectTiff bytes limits) := by
  refine ⟨(inspectRun bytes limits).1, rfl, ?_⟩
  change Bounded limits (inspectRun bytes limits)
  have h0 : Kept limits [] 0 := ⟨fun page hpage => (by cases hpage), rfl, Nat.zero_le _⟩
  unfold inspectRun
  split
  case isTrue => exact Bounded.refused _ _
  case isFalse hclassic =>
    have hlength : 8 ≤ bytes.length := by
      rw [Bool.not_eq_false, isClassicTiff, Bool.and_eq_true] at hclassic
      exact of_decide_eq_true hclassic.1
    dsimp only
    generalize decide (bytes[0]? = some 0x49) = littleEndian
    cases hstart : u32 bytes littleEndian 4 with
    | error e =>
      have hne : e ≠ .outside := by
        rintro rfl
        exact inside_u32 (by omega) hstart
      cases e with
      | outside => exact absurd rfl hne
      | rejected code message => exact Bounded.refused code message
    | ok offset =>
      dsimp only
      split
      case isTrue => exact Bounded.refused _ _
      case isFalse hoffset =>
        have hwalk := @walk_bounded bytes littleEndian limits [] [] 0 offset h0
        exact
          { once := hwalk.once.1
            limited := fun limit hmem => by simpa using hwalk.limited limit hmem (Nat.zero_le _)
            refuses := fun e he => by
              cases hrun : (walk bytes littleEndian limits [] [] 0 offset).2 with
              | ok found =>
                rw [hrun] at he
                cases he
              | error e' =>
                rw [hrun] at he
                cases e with
                | rejected code message => exact ⟨code, message, rfl⟩
                | outside => exact absurd (hrun.trans (congrArg Except.error (Except.error.inj he))) hwalk.inside
            returns := fun inspection hreturn => by
              obtain ⟨found, hfound, rfl⟩ := map_ok.1 hreturn
              obtain ⟨hkept, -⟩ := hwalk.result found hfound
              refine ⟨walk_ne_nil hoffset h0 hfound, fun page hpage => ?_, hkept.exact, hkept.within⟩
              exact ⟨(hkept.sized page hpage).width, (hkept.sized page hpage).length,
                (hkept.sized page hpage).pixels⟩ }

end Recouple.Ingest
