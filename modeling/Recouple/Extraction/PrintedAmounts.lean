import Recouple.Lib.Matcher
import Recouple.Core.UnitPrice

/-!
# The amounts a text prints: `packages/extraction/src/amounts.ts`

`printedAmounts` reads every number of a text to its own ends, with the marks that make it negative.
`amountPrintedWhole` asks for one that is the value, in the quote and on the page.

| `amounts.ts`             | here                                       |
|--------------------------|--------------------------------------------|
| `pattern`                | `amountPattern`: `lead`, `number`, `trail` |
| `[\p{L}\p{N}]`           | a parameter, `LetterClass`                 |
| a position in code units | a position in code points                  |
-/

namespace Recouple.Quotes
open Js Js.Pattern

/-- What the class of letters and numbers, `[\p{L}\p{N}]`, matches without and with the flag `i`. -/
structure LetterClass where
  plain : Char → Bool
  caseless : Char → Bool

inductive MoneyKind
  | amount
  | unitPrice
deriving DecidableEq

/-- One number printed in a text, read whole, with the marks that make it negative. -/
structure PrintedAmount where
  text : Text
  start : Nat
  «end» : Nat
deriving DecidableEq

/-! ## The pattern -/

def isMinus (c : Char) : Bool := c == '-' || c.toNat == 0x2212 || (0x2012 ≤ c.toNat && c.toNat ≤ 0x2014)

def isMark (c : Char) : Bool := c == '.' || c == ','

def digit : Pattern Unit := one Char.isDigit

/-- `[.,]|, (?=\d{3}(?!\d))`. -/
def separator : Pattern Unit :=
  either (one isMark) do
    one (· == ',')
    one (· == ' ')
    ahead do
      digit
      digit
      digit
      notAhead digit

/-- One more group of a number. -/
def group : Pattern Unit := do
  separator
  plus digit

/-- `\d+(?:(?:[.,]|, (?=\d{3}(?!\d)))\d+)*`. -/
def plainNumber : Pattern Unit := do
  plus digit
  star group

/-- `(?<![\d.])\.\d+(?![.,]?\d)`. -/
def bareNumber : Pattern Unit := do
  notBehind fun c => c.isDigit || c == '.'
  one (· == '.')
  plus digit
  notAhead do
    let _ ← optional (one isMark)
    digit

def number : Pattern Unit := either plainNumber bareNumber

/-- `open`, `minusBefore` with `spaced`, and `dollar` with `minusAfter`. -/
structure Lead where
  «open» : Option Text
  minusBefore : Option (Text × Option Text)
  dollar : Option (Text × Option Text)

/-- `close`, `minusTrailing` and `credit`. -/
structure Trail where
  close : Option Text
  minusTrailing : Option Text
  credit : Option Text

/-- The groups of one match, and where its number is. -/
structure AmountMatch where
  lead : Lead
  digits : Text
  digitsStart : Nat
  digitsEnd : Nat
  trail : Trail

/-- `((?<![\p{L}\p{N}\-−‒-—])MINUS)( )?`. -/
def minusBefore (L : LetterClass) : Pattern (Text × Option Text) := do
  notBehind fun c => L.caseless c || isMinus c
  let minus ← captured (one isMinus)
  let spaced ← optional (captured (one (· == ' ')))
  pure (minus, spaced)

/-- `(\$ ?)(MINUS)?`. -/
def dollar : Pattern (Text × Option Text) := do
  let sign ← captured do
    one (· == '$')
    optional (one (· == ' '))
  let minus ← optional (captured (one isMinus))
  pure (sign, minus)

def lead (L : LetterClass) : Pattern Lead := do
  let «open» ← optional (captured (one (· == '(')))
  let minus ← optional (minusBefore L)
  let dollar ← optional dollar
  pure ⟨«open», minus, dollar⟩

/-- `MINUS(?![\d.,$])`. -/
def minusTrailing : Pattern Text := do
  let minus ← captured (one isMinus)
  notAhead (one fun c => c.isDigit || isMark c || c == '$')
  pure minus

/-- What `\w` matches under the flags `i` and `u`. -/
def isWordChar (c : Char) : Bool := c.isAlphanum || c == '_' || c.toNat == 0x17F || c.toNat == 0x212A

/-- `\s?(?:cr|dr)\b`. -/
def credit : Pattern Text := captured do
  let _ ← optional (one isSpace)
  either (word "cr") (word "dr")
  boundary isWordChar

def trail : Pattern Trail := do
  let close ← optional (captured (one (· == ')')))
  let minus ← optional minusTrailing
  let credit ← optional credit
  pure ⟨close, minus, credit⟩

def amountPattern (L : LetterClass) : Pattern AmountMatch := do
  let lead ← lead L
  let digitsStart ← position
  let digits ← captured number
  let digitsEnd ← position
  let trail ← trail
  pure ⟨lead, digits, digitsStart, digitsEnd, trail⟩

/-! ## `printedAmounts` -/

namespace AmountMatch

/-- Parentheses only in pairs. -/
def paired (m : AmountMatch) : Bool := m.lead.open.isSome && m.trail.close.isSome

def minusAfter (m : AmountMatch) : Option Text := m.lead.dollar.bind (·.2)

/-- `readings`: a dash set apart by a space is read both ways. -/
def readings (m : AmountMatch) : List Bool :=
  let signed := m.minusAfter.isSome || m.trail.minusTrailing.isSome
  match m.lead.minusBefore with
  | none => [signed]
  | some (_, spaced) => if signed || spaced.isNone then [true] else [true, false]

def printed (m : AmountMatch) (negative : Bool) : Text :=
  (if m.paired then ['('] else []) ++ (if negative then ['-'] else []) ++ (m.lead.dollar.map (·.1)).getD [] ++
    m.digits.filter (fun c => !isSpace c) ++ (if m.paired then [')'] else []) ++ m.trail.credit.getD []

end AmountMatch

/-- Where the match starts: not at a parenthesis that is not closed. -/
def startOf (m : Match AmountMatch) : Nat :=
  m.start.index + if m.value.lead.open.isSome && !m.value.paired then 1 else 0

/-- The entries of one match. -/
def amountsOf (m : Match AmountMatch) : List PrintedAmount :=
  m.value.readings.map fun negative => ⟨m.value.printed negative, startOf m, m.stop.index⟩

def printedAmounts (L : LetterClass) (text : Text) : List PrintedAmount :=
  (matchAll (amountPattern L) text).flatMap amountsOf

/-! ## `amountPrintedWhole` -/

section
variable (T : CaseTables) (L : LetterClass)

/-- `sameAmount`: what a `MoneyError` stops is equal to nothing. -/
def sameAmount (kind : MoneyKind) (a b : Text) : Bool :=
  match kind with
  | .unitPrice =>
    match parseUnitPrice T a, parseUnitPrice T b with
    | .ok a, .ok b => compareUnitPrices a b == 0
    | _, _ => false
  | .amount =>
    match parseMoneyToCents T a, parseMoneyToCents T b with
    | .ok a, .ok b => a == b
    | _, _ => false

def readsAsMoney (kind : MoneyKind) (value : Text) : Bool := sameAmount T kind value value

/-- A span of the page's text: where a quote was found. -/
structure Span where
  start : Nat
  «end» : Nat
deriving DecidableEq

/-- `spans`: where the quote is, or `none` for `'anywhere'`. -/
def amountPrintedWhole (kind : MoneyKind) (value quote page : Text) (spans : Option (List Span)) : Bool :=
  ((printedAmounts L quote).any fun n => sameAmount T kind n.text value) &&
    (printedAmounts L page).any fun n =>
      (match spans with
        | none => true
        | some spans => spans.any fun span => n.start < span.end && span.start < n.end) &&
      sameAmount T kind n.text value

end

/-- Every place `needle` occurs in `haystack`, overlapping ones included. -/
def spansOf (haystack needle : Text) : List Span :=
  if needle = [] then []
  else ((Place.all haystack).filter fun c => needle.isPrefixOf c.after).map fun c => ⟨c.index, c.index + needle.length⟩

/-! ## `foldNumberGlyphs` -/

def isGlyph (c : Char) : Bool := "oOiIlsSbBzZg".toList.contains c

/-- `NUMBER_GLYPHS[glyph]`. -/
def numberGlyph (c : Char) : Char :=
  if c == 'o' || c == 'O' then '0' else if c == 'i' || c == 'I' || c == 'l' then '1'
  else if c == 's' || c == 'S' then '5' else if c == 'b' || c == 'B' then '8'
  else if c == 'z' || c == 'Z' then '2' else if c == 'g' then '6' else c

/-- `(?<=[\d.,])[oOiIlsSbBzZg]|[oOiIlsSbBzZg](?=[\d.,]\d|\d)`, and what replaces it. -/
def touching : Pattern Text := do
  let glyph ← either
    (do
      behind fun c => c.isDigit || isMark c
      captured (one isGlyph))
    (do
      let glyph ← captured (one isGlyph)
      ahead (either (do one (fun c => c.isDigit || isMark c); digit) digit)
      pure glyph)
  pure (glyph.map numberGlyph)

/-- The loop of `foldNumberGlyphs`. -/
def foldFrom : Nat → Text → Text
  | 0, folded => folded
  | n + 1, folded =>
    let next := replace touching folded
    if next = folded then folded else foldFrom n next

/-- `foldNumberGlyphs`: each round but the last folds a letter. -/
def foldNumberGlyphs (text : Text) : Text := foldFrom (text.length + 1) text

end Recouple.Quotes
