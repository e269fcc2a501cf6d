import Recouple.Core.Money

/-!
# Money as printed: `packages/core-domain/src/money.ts` (141-275, 463-469)

`parseMoneyToCents` reads the text of a money field or throws; `printsNoAmount` says that the field
prints a dash. `toUpperCase` is the one step that reads the Unicode tables.
-/

namespace Recouple
open Js

/-- `PrintedNumber`: the digits of the page, the separators removed. -/
structure PrintedNumber where
  negative : Bool
  whole : Text
  fraction : Text
deriving DecidableEq

/-- What `.` of a regular expression does not match. -/
def isLineTerminator (c : Char) : Bool :=
  c == '\n' || c == '\r' || c.toNat == 0x2028 || c.toNat == 0x2029

/-- `/^\((.*)\)$/`. -/
def parenthesised : Text → Option Text
  | '(' :: rest =>
    if rest.getLast? = some ')' ∧ rest.dropLast.all fun c => !isLineTerminator c then some rest.dropLast else none
  | _ => none

/-- `/^(.*?)\s*(CR|DR)$/`: what stands before the marker, and whether it is `CR`. -/
def markerOf (t : Text) : Option (Text × Bool) :=
  let mark := t.drop (t.length - 2)
  let before := (t.take (t.length - 2)).rdropWhile isSpace
  if (mark = "CR".toList ∨ mark = "DR".toList) ∧ before.all fun c => !isLineTerminator c then
    some (before, mark = "CR".toList)
  else none

def isWord (c : Char) : Bool := c.isAlphanum || c == '_'

/-- `.replace(/\bUSD\b/g, '')`, `inWord` when a word character stands before. -/
def dropUSD : Bool → Text → Text
  | _, [] => []
  | inWord, 'U' :: 'S' :: 'D' :: rest =>
    if !inWord && !(rest.head?.any isWord) then dropUSD true rest else 'U' :: dropUSD true ('S' :: 'D' :: rest)
  | _, c :: cs => c :: dropUSD (isWord c) cs

/-- `/^[0-9,]*\.?[0-9]*$/`. -/
def amountShape (t : Text) : Bool :=
  match t.dropWhile fun c => c.isDigit || c == ',' with
  | [] => true
  | c :: rest => c == '.' && rest.all Char.isDigit

/-- Thousands separators are exactly that: `1,234` or `1,234,567`, never `1,23`. -/
def groupedInThrees (whole : Text) : Bool :=
  match whole.splitOn ',' with
  | [] => true
  | first :: rest => rest = [] || (first.length ≠ 0 && first.length ≤ 3 && rest.all fun g => g.length = 3)

section
variable (T : CaseTables)

/-- `readPrinted`. -/
def readPrinted (text : Text) : Except MoneyError PrintedNumber :=
  let working := T.toUpperCase (trim text)
  if working = [] then .error .emptyText
  else
    let (negative, working) :=
      match parenthesised working with
      | some inner => (true, trim inner)
      | none => (false, working)
    let (negative, working) :=
      match markerOf working with
      | some (before, credit) => (negative ^^ credit, trim before)
      | none => (negative, working)
    let working := ((dropUSD false working).filter (· ≠ '$')).filter fun c => !isSpace c
    let (negative, working) :=
      match working with
      | '-' :: rest => (!negative, rest)
      | '+' :: rest => (negative, rest)
      | _ => (negative, working)
    if !amountShape working || working = [] || working = ['.'] then .error (.unreadable text)
    else
      let wholePart := working.takeWhile (· ≠ '.')
      let fraction := (working.dropWhile (· ≠ '.')).drop 1
      if !groupedInThrees wholePart then .error (.ambiguousSeparators text)
      else
        let whole := wholePart.filter (· ≠ ',')
        if whole = [] ∧ fraction = [] then .error (.unreadable text)
        else .ok ⟨negative, whole, fraction⟩

/-- `centsOfFraction`: the two cent digits of a printed fraction, or a refusal. -/
def centsOfFraction (fraction original : Text) : Except MoneyError Text :=
  if fraction.length = 2 then .ok fraction
  else if fraction.length < 2 then .error (.tooFewPlaces original fraction.length)
  else if !(fraction.drop 2).all (· = '0') then .error (.fractionOfACent original fraction.length)
  -- `mayBeThousandsGroup`
  else if fraction.length = 3 then .error (.thousandsGroup original)
  else .ok (fraction.take 2)

/-- `parseMoneyToCents`. -/
def parseMoneyToCents (text : Text) : Except MoneyError Cents := do
  let printed ← readPrinted T text
  let fraction ← if printed.fraction = [] then pure "00".toList else centsOfFraction printed.fraction text
  let whole := if printed.whole = [] then "0".toList else printed.whole
  match numberOf (Nat.ofDigitChars 10 (whole ++ fraction) 0) with
  | none => .error (.printedOutOfRange text)
  | some magnitude =>
    if (magnitude : Int) ≤ maxSafe then cents (if printed.negative then -magnitude else magnitude)
    else .error (.printedOutOfRange text)

example : (parseMoneyToCents asciiCase "USD 1,234.5600 cr").toOption.map (·.val) = some (-123456) := by decide

/-- A field with nothing in it is no amount. -/
theorem parseMoneyToCents_blank {text : Text} (h : trim text = []) :
    parseMoneyToCents T text = .error .emptyText := by
  simp [parseMoneyToCents, readPrinted, h, CaseTables.toUpperCase, bind, Except.bind]

end

/-- `NO_AMOUNT_DASH`. -/
def isDash (c : Char) : Bool :=
  c == '-' || (0x2010 ≤ c.toNat && c.toNat ≤ 0x2015) || c.toNat == 0x2212 || c.toNat == 0xFE58 ||
    c.toNat == 0xFE63 || c.toNat == 0xFF0D

/-- `printsNoAmount`: a dash, two or three of them, or those after `$` or `USD`. -/
def printsNoAmount (text : Text) : Bool :=
  let rest := text.dropWhile isSpace
  let rest :=
    match rest with
    | '$' :: rest => rest
    | u :: s :: d :: tail => if [u.toUpper, s.toUpper, d.toUpper] = "USD".toList then tail else rest
    | _ => rest
  let dashes := trim rest
  1 ≤ dashes.length && dashes.length ≤ 3 && dashes.all isDash

example : printsNoAmount "USD —" = true ∧ printsNoAmount "-5" = false := by decide

end Recouple
