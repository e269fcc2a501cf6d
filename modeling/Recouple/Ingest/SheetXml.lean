import Recouple.Lib.KeyedFold
import Recouple.Lib.Utf16

/-!
# The spreadsheet XML reader: `sheet-xml.ts`

| here | there |
| --- | --- |
| `references`, `resolve` | the matches of the pattern of `decodeXmlText`, and its callback |
| `attrMatch`, `parseAttrs` | the sticky pattern of `parseAttrs`, and its loop |
| `tokenizeFrom` | the loop of `tokenizeXml`, on what is left of the string |

A string is its code units, since a character reference may name half of a pair. `NAMED` and `attrs` are ordinary
objects, and `in` and `[]` reach the properties every object has (`objectProperties`).
-/

namespace Recouple.Ingest
open Js Js.Units

/-! ## Characters -/

/-- A character of the source, as a code unit. -/
def unit (c : Char) : UInt16 := .ofNat c.toNat

/-- `\s` -/
def isSpaceUnit (u : UInt16) : Bool := isSpace (Units.scalar u.toNat)

def isDigitUnit (u : UInt16) : Bool := unit '0' ≤ u && u ≤ unit '9'

def isLetterUnit (u : UInt16) : Bool := (unit 'A' ≤ u && u ≤ unit 'Z') || (unit 'a' ≤ u && u ≤ unit 'z')

/-- `[A-Za-z_]` -/
def isNameStart (u : UInt16) : Bool := isLetterUnit u || u == unit '_'

/-- `[\w.:-]` -/
def isNameUnit (u : UInt16) : Bool :=
  isNameStart u || isDigitUnit u || u == unit '.' || u == unit ':' || u == unit '-'

/-- `[0-9a-fA-F]`, and its value. -/
def hexValue (u : UInt16) : Option Nat :=
  if isDigitUnit u then some (u.toNat - 48)
  else if unit 'a' ≤ u && u ≤ unit 'f' then some (u.toNat - 87)
  else if unit 'A' ≤ u && u ≤ unit 'F' then some (u.toNat - 55)
  else none

/-- `NAME.exec(text)`: the name the text begins with, and what is after it. -/
def nameOf : Units → Option (Units × Units)
  | [] => none
  | u :: rest => if isNameStart u then some (u :: rest.takeWhile isNameUnit, rest.dropWhile isNameUnit) else none

inductive XmlError
  | declaration
  | malformedReference
  | unknownEntity (name : Units)
  | outOfRange
  | unterminatedInstruction
  | malformedClosingTag
  | malformedTag
  | unterminatedTag
  | malformedAttribute
  | duplicateAttribute
deriving DecidableEq

def XmlError.message : XmlError → Units
  | .declaration => ofText "XML declares a DTD or markup declaration".toList
  | .malformedReference => ofText "malformed entity reference".toList
  | .unknownEntity name => ofText "unknown entity &".toList ++ name ++ ofText ";".toList
  | .outOfRange => ofText "character reference out of range".toList
  | .unterminatedInstruction => ofText "unterminated processing instruction".toList
  | .malformedClosingTag => ofText "malformed closing tag".toList
  | .malformedTag => ofText "malformed tag".toList
  | .unterminatedTag => ofText "unterminated tag".toList
  | .malformedAttribute => ofText "malformed attribute".toList
  | .duplicateAttribute => ofText "duplicate attribute".toList

/-! ## References -/

/-- `NAMED` -/
def named : List (Units × Units) :=
  [(ofText "amp".toList, [unit '&']), (ofText "lt".toList, [unit '<']), (ofText "gt".toList, [unit '>']),
    (ofText "quot".toList, [unit '"']), (ofText "apos".toList, [unit '\''])]

/-- How a built-in function reads as text. -/
def nativeFunction (name : String) : Units :=
  ofText ("function ".toList ++ name.toList ++ "() \x7b [native code] \x7d".toList)

/-- The properties of `Object.prototype`, which every object has, each as the text it is read as. -/
def objectProperties : List (Units × Units) :=
  (ofText "__proto__".toList, ofText "[object Object]".toList) ::
    (ofText "constructor".toList, nativeFunction "Object") ::
    ["__defineGetter__", "__defineSetter__", "__lookupGetter__", "__lookupSetter__", "hasOwnProperty", "isPrototypeOf",
      "propertyIsEnumerable", "toLocaleString", "toString", "valueOf"].map fun name =>
        (ofText name.toList, nativeFunction name)

/-- `name in object`, for the names of properties of its own. -/
def inObject (own : List Units) (name : Units) : Bool :=
  own.contains name || (objectProperties.map Prod.fst).contains name

/-- A match of `/&([^;&\s]*);?/g`: its name, and whether it ends in a semicolon. -/
structure Reference where
  name : Units
  closed : Bool
deriving DecidableEq

/-- What `replace` finds in a text: characters it keeps, and matches. -/
inductive Segment
  | kept (u : UInt16)
  | reference (r : Reference)
deriving DecidableEq

def inReference (u : UInt16) : Bool := u != unit ';' && u != unit '&' && !isSpaceUnit u

def segments : Units → List Segment
  | [] => []
  | u :: rest =>
    if u = unit '&' then
      if (rest.dropWhile inReference).head? = some (unit ';') then
        .reference ⟨rest.takeWhile inReference, true⟩ :: segments (rest.dropWhile inReference).tail
      else .reference ⟨rest.takeWhile inReference, false⟩ :: segments (rest.dropWhile inReference)
    else .kept u :: segments rest
termination_by text => text.length
decreasing_by
  · have := (List.dropWhile_sublist inReference (l := rest)).length_le
    simp only [List.length_tail, List.length_cons]
    omega
  · have := (List.dropWhile_sublist inReference (l := rest)).length_le
    simp only [List.length_cons]
    omega
  · simp

/-- `parseInt(digits, 10)` -/
def decimalCode (digits : Units) : Nat := digits.foldl (fun n u => n * 10 + (u.toNat - 48)) 0

/-- `parseInt(digits, 16)` -/
def hexCode (digits : Units) : Nat := digits.foldl (fun n u => n * 16 + (hexValue u).getD 0) 0

/-- The number a numeric reference names. -/
def referenceCode : Units → Option Nat
  | hash :: x :: digits =>
    if hash = unit '#' ∧ (x :: digits).all isDigitUnit then some (decimalCode (x :: digits))
    else if hash = unit '#' ∧ x = unit 'x' ∧ digits ≠ [] ∧ digits.all (fun u => (hexValue u).isSome) then
      some (hexCode digits)
    else none
  | _ => none

/-- `String.fromCodePoint(code)` -/
def fromCodePoint (code : Nat) : Units := (pointUnits code).map UInt16.ofNat

/-- The callback of `decodeXmlText`. -/
def resolve (r : Reference) : Except XmlError Units :=
  if r.closed = false then .error .malformedReference
  else match (named ++ objectProperties).lookup r.name with
    | some value => .ok value
    | none => match referenceCode r.name with
      | none => .error (.unknownEntity r.name)
      | some code => if 0x10ffff < code then .error .outOfRange else .ok (fromCodePoint code)

def Segment.decode : Segment → Except XmlError Units
  | .kept u => .ok [u]
  | .reference r => resolve r

/-- `decodeXmlText` -/
def decodeXmlText (raw : Units) : Except XmlError Units := do
  let parts ← (segments raw).mapM Segment.decode
  return parts.flatten

/-! ## Attributes -/

/-- A match of the attribute pattern at the start of `src`: the name, the value within its quotes, and what is after. -/
def attrMatch (src : Units) : Option (Units × Units × Units) := do
  let (name, rest) ← nameOf (src.dropWhile isSpaceUnit)
  match rest.dropWhile isSpaceUnit with
  | [] => none
  | eq :: rest =>
    if eq ≠ unit '=' then none
    else match rest.dropWhile isSpaceUnit with
      | [] => none
      | quoteUnit :: rest =>
        if quoteUnit ≠ unit '"' ∧ quoteUnit ≠ unit '\'' then none
        else match rest.dropWhile (· != quoteUnit) with
          | [] => none
          | _ :: after => some (name, rest.takeWhile (· != quoteUnit), after)

theorem nameOf_split {src name rest : Units} (h : nameOf src = some (name, rest)) : src = name ++ rest := by
  cases src with
  | nil => cases h
  | cons u src =>
    rw [nameOf] at h
    split at h
    case isTrue =>
      obtain ⟨rfl, rfl⟩ := Prod.mk.inj (Option.some.inj h)
      rw [List.cons_append, List.takeWhile_append_dropWhile]
    case isFalse => cases h

/-- What the pattern matches is a slice: the value stands between what is before its quote and the other quote. -/
theorem attrMatch_split {src name raw after : Units} (h : attrMatch src = some (name, raw, after)) :
    ∃ front quoteUnit, src = front ++ raw ++ quoteUnit :: after := by
  have hspace : ∀ text : Units, text = text.takeWhile isSpaceUnit ++ text.dropWhile isSpaceUnit := fun text =>
    List.takeWhile_append_dropWhile.symm
  unfold attrMatch at h
  obtain ⟨⟨found, rest⟩, hname, h⟩ := Option.bind_eq_some_iff.1 h
  have hfirst := nameOf_split hname
  dsimp only at h
  cases heq : rest.dropWhile isSpaceUnit with
  | nil =>
    rw [heq] at h
    cases h
  | cons eq rest' =>
    rw [heq] at h
    dsimp only at h
    split at h
    · cases h
    cases hquote : rest'.dropWhile isSpaceUnit with
    | nil =>
      rw [hquote] at h
      cases h
    | cons quoteUnit rest'' =>
      rw [hquote] at h
      dsimp only at h
      split at h
      · cases h
      cases hclose : rest''.dropWhile (· != quoteUnit) with
      | nil =>
        rw [hclose] at h
        cases h
      | cons close after' =>
        rw [hclose] at h
        obtain ⟨-, rfl, rfl⟩ := h
        have hvalue : rest'' = rest''.takeWhile (· != quoteUnit) ++ close :: after := by
          rw [← hclose, List.takeWhile_append_dropWhile]
        refine ⟨src.takeWhile isSpaceUnit ++ name ++ rest.takeWhile isSpaceUnit ++ eq :: rest'.takeWhile isSpaceUnit ++
          [quoteUnit], close, ?_⟩
        calc src = src.takeWhile isSpaceUnit ++ (name ++ rest) := by rw [← hfirst]; exact hspace src
          _ = src.takeWhile isSpaceUnit ++ (name ++ (rest.takeWhile isSpaceUnit ++ eq :: rest')) := by
            rw [← heq, ← hspace rest]
          _ = src.takeWhile isSpaceUnit ++ (name ++ (rest.takeWhile isSpaceUnit ++
              eq :: (rest'.takeWhile isSpaceUnit ++ quoteUnit :: rest''))) := by rw [← hquote, ← hspace rest']
          _ = src.takeWhile isSpaceUnit ++ (name ++ (rest.takeWhile isSpaceUnit ++ eq :: (rest'.takeWhile isSpaceUnit ++
              quoteUnit :: (rest''.takeWhile (· != quoteUnit) ++ close :: after)))) := by rw [← hvalue]
          _ = _ := by simp

theorem attrMatch_length {src name raw after : Units} (h : attrMatch src = some (name, raw, after)) :
    after.length < src.length := by
  obtain ⟨front, quoteUnit, rfl⟩ := attrMatch_split h
  simp only [List.length_append, List.length_cons]
  omega

/-- The loop of `parseAttrs`, past the attributes read so far. -/
def parseAttrsFrom (attrs : List (Units × Units)) (src : Units) : Except XmlError (List (Units × Units)) :=
  if src.all isSpaceUnit then .ok attrs
  else match _h : attrMatch src with
    | none => .error .malformedAttribute
    | some (name, raw, after) =>
      if inObject (attrs.map Prod.fst) name then .error .duplicateAttribute
      else do
        let value ← decodeXmlText raw
        parseAttrsFrom (attrs ++ [(name, value)]) after
termination_by src.length
decreasing_by exact attrMatch_length _h

/-- `parseAttrs` -/
def parseAttrs (src : Units) : Except XmlError (List (Units × Units)) := parseAttrsFrom [] src

/-! ## Tokens -/

inductive XmlToken
  | opening (name : Units) (attrs : List (Units × Units)) (selfClosing : Bool)
  | closing (name : Units)
  | text (text : Units)
deriving DecidableEq

/-- `findTagEnd`: what is within the tag and what is after it, from a place within this quote or within none. -/
def findTagEnd : Option UInt16 → Units → Except XmlError (Units × Units)
  | _, [] => .error .unterminatedTag
  | some quoteUnit, u :: rest => do
    let (inner, after) ← findTagEnd (if u = quoteUnit then none else some quoteUnit) rest
    return (u :: inner, after)
  | none, u :: rest =>
    if u = unit '"' ∨ u = unit '\'' then do
      let (inner, after) ← findTagEnd (some u) rest
      return (u :: inner, after)
    else if u = unit '<' then .error .malformedTag
    else if u = unit '>' then .ok ([], rest)
    else do
      let (inner, after) ← findTagEnd none rest
      return (u :: inner, after)

/-- What is after the first `?>`. -/
def afterInstruction : Units → Option Units
  | u :: v :: rest => if u = unit '?' ∧ v = unit '>' then some rest else afterInstruction (v :: rest)
  | _ => none

def trimUnits (s : Units) : Units := (s.dropWhile isSpaceUnit).rdropWhile isSpaceUnit

/-- The token of a tag, from what is within it. -/
def readTag (inner : Units) : Except XmlError XmlToken :=
  if inner.head? = some (unit '/') then
    match nameOf (trimUnits inner.tail) with
    | none => .error .malformedClosingTag
    | some (name, _) => .ok (.closing name)
  else
    let selfClosing := inner.getLast? = some (unit '/')
    match nameOf (if selfClosing then inner.dropLast else inner) with
    | none => .error .malformedTag
    | some (name, rest) => do
      let attrs ← parseAttrs rest
      return .opening name attrs selfClosing

theorem findTagEnd_split {quoteUnit : Option UInt16} {s inner after : Units}
    (h : findTagEnd quoteUnit s = .ok (inner, after)) : ∃ close, s = inner ++ close :: after := by
  induction s generalizing quoteUnit inner with
  | nil => cases quoteUnit <;> cases h
  | cons u rest ih =>
    have hstep : ∀ {q : Option UInt16}, (do
        let (inner, after) ← findTagEnd q rest
        return (u :: inner, after) : Except XmlError (Units × Units)) = .ok (inner, after) →
        ∃ close, u :: rest = inner ++ close :: after := by
      intro q hq
      obtain ⟨⟨inner', after'⟩, hrest, hq⟩ := KeyedFold.bind_ok.1 hq
      obtain ⟨rfl, rfl⟩ := Prod.mk.inj (Except.ok.inj hq)
      obtain ⟨close, rfl⟩ := ih hrest
      exact ⟨close, rfl⟩
    cases quoteUnit with
    | some q => exact hstep h
    | none =>
      rw [findTagEnd] at h
      split at h
      · exact hstep h
      · split at h
        · cases h
        · split at h
          · obtain ⟨rfl, rfl⟩ := Prod.mk.inj (Except.ok.inj h)
            exact ⟨u, rfl⟩
          · exact hstep h

theorem findTagEnd_length {s inner after : Units} (h : findTagEnd none s = .ok (inner, after)) :
    after.length < s.length := by
  obtain ⟨close, rfl⟩ := findTagEnd_split h
  simp only [List.length_append, List.length_cons]
  omega

theorem afterInstruction_split {s after : Units} (h : afterInstruction s = some after) :
    ∃ front, s = front ++ unit '?' :: unit '>' :: after := by
  induction s using afterInstruction.induct with
  | case1 u v rest hend =>
    rw [afterInstruction, if_pos hend] at h
    obtain rfl := Option.some.inj h
    exact ⟨[], by rw [hend.1, hend.2]; rfl⟩
  | case2 u v rest hend ih =>
    rw [afterInstruction, if_neg hend] at h
    obtain ⟨front, hfront⟩ := ih h
    exact ⟨u :: front, by rw [hfront]; rfl⟩
  | case3 s hshort =>
    rw [afterInstruction] at h
    · cases h
    · exact hshort

theorem afterInstruction_length {rest after : Units} (h : afterInstruction rest.tail = some after) :
    after.length < rest.length := by
  obtain ⟨front, hfront⟩ := afterInstruction_split h
  have htail := congrArg List.length hfront
  simp only [List.length_tail, List.length_append, List.length_cons] at htail
  omega

/-- The loop of `tokenizeXml`. -/
def tokenizeFrom : Units → Except XmlError (List XmlToken)
  | [] => .ok []
  | u :: rest =>
    if _hlt : u ≠ unit '<' then do
      let text ← decodeXmlText ((u :: rest).takeWhile (· != unit '<'))
      let tokens ← tokenizeFrom ((u :: rest).dropWhile (· != unit '<'))
      return .text text :: tokens
    else if rest.head? = some (unit '?') then
      match _h : afterInstruction rest.tail with
      | none => .error .unterminatedInstruction
      | some after => tokenizeFrom after
    else
      match _h : findTagEnd none rest with
      | .error e => .error e
      | .ok (inner, after) => do
        let token ← readTag inner
        let tokens ← tokenizeFrom after
        return token :: tokens
termination_by s => s.length
decreasing_by
  · have := (List.dropWhile_sublist (· != unit '<') (l := rest)).length_le
    rw [List.dropWhile_cons_of_pos (by simpa using _hlt), List.length_cons]
    omega
  · have := afterInstruction_length _h
    rw [List.length_cons]
    omega
  · have := findTagEnd_length _h
    rw [List.length_cons]
    omega

/-- `xml.includes('<!')` -/
def declares : Units → Bool
  | u :: v :: rest => (u == unit '<' && v == unit '!') || declares (v :: rest)
  | _ => false

/-- `tokenizeXml` -/
def tokenizeXml (xml : Units) : Except XmlError (List XmlToken) :=
  if declares xml then .error .declaration else tokenizeFrom xml

end Recouple.Ingest
