import Recouple.Extraction.Markup
import Recouple.Extraction.PrintedAmounts
import Recouple.Lib.Double

/-!
# Quote verification: `packages/extraction/src/verify.ts`

Did the value the model reported appear on the page it cited? `matchOnPage` looks for the quote on a page in four tiers,
each reading both texts more loosely; `withAmount` asks for a money field's value on what the tier read.

| `verify.ts`                  | here                                       |
|------------------------------|--------------------------------------------|
| `toLowerCase`                | a parameter, `CaseTables`                  |
| `sourcePage: number`         | `SourcePage`                               |
| `haystack[at]`, a code unit  | a code point; `wordUnit` tells them apart  |
-/

namespace Recouple.Quotes
open Js Js.Pattern

section
variable (T : CaseTables) (L : LetterClass)

/-- Whitespace and case are presentation; everything else must match. -/
def normalise (text : Text) : Text := trim (collapse (T.toLowerCase text))

/-! ## The letters-and-digits form -/

def SIGN_MARK : Char := '\uE000'
def NUMBER_GAP : Char := '\uE001'

/-- `[a-z0-9]`. -/
def isLowerAlphanumeric (c : Char) : Bool := ('a' ≤ c && c ≤ 'z') || c.isDigit

/-- `/(\d)[ \t]?([.,])[ \t]?(?=\d)/g`, replaced by `$1$2`. -/
def spacedMark : Pattern Text := do
  let before ← captured digit
  let _ ← optional (one fun c => c == ' ' || c == '\t')
  let mark ← captured (one isMark)
  let _ ← optional (one fun c => c == ' ' || c == '\t')
  ahead digit
  pure (before ++ mark)

def isCurrency (c : Char) : Bool := "$€£¥".toList.contains c

/-- `LEADING_SIGN`: a minus in front of a number, not after a letter, a digit or another dash. -/
def leadingSign : Pattern Text := do
  notBehind fun c => L.plain c || c == '-'
  one (· == '-')
  ahead do
    let _ ← optional (one isCurrency)
    digit
  pure [SIGN_MARK]

/-- `TRAILING_SIGN`: a minus behind a number, ending its word. -/
def trailingSign : Pattern Text := do
  behind Char.isDigit
  one (· == '-')
  ahead (either (one isSpace) atEnd)
  pure [SIGN_MARK]

/-- `NUMBER_BREAK`: white space between two numbers, with whatever marks surround it, up to a sign. -/
def numberBreak : Pattern Text := do
  let before ← captured digit
  star (one fun c => !(isLowerAlphanumeric c || c == SIGN_MARK))
  one isSpace
  star (one fun c => !(isLowerAlphanumeric c || c == SIGN_MARK))
  ahead (either (one (· == SIGN_MARK)) digit)
  pure (before ++ [NUMBER_GAP])

/-- `/(?<!\d)[.,]|[.,](?!\d)/g`, taken out. -/
def looseMark : Pattern Text := either
  (do
    notBehind Char.isDigit
    one isMark
    pure [])
  (do
    one isMark
    notAhead digit
    pure [])

def numeric (lowered : Text) : Text :=
  let marked := replace numberBreak (replace trailingSign (replace (leadingSign L) (replace spacedMark lowered)))
  let kept := marked.filter fun c => isLowerAlphanumeric c || isMark c || c == SIGN_MARK || c == NUMBER_GAP
  ((replace looseMark kept).map fun c => if c = SIGN_MARK then '-' else c).map fun c => if c = NUMBER_GAP then ' ' else c

def alphanumeric (text : Text) : Text := numeric L (T.toLowerCase text)

/-- The glyphs of `glyphFolded`. -/
def foldGlyph (c : Char) : Char :=
  if c = 'o' then '0' else if c = 'i' ∨ c = 'l' then '1' else if c = 's' then '5' else if c = 'b' then '8'
  else if c = 'z' then '2' else if c = 'g' then '6' else c

def glyphFolded (text : Text) : Text := numeric L ((T.toLowerCase text).map foldGlyph)

/-! ## Where a quote occurs -/

/-- How a minus is spelled: as a dash of the page, or as the `-` that `numeric` leaves. -/
inductive Signs
  | page
  | marked
deriving DecidableEq

/-- `WORD_CHAR` on one code unit: half of a surrogate pair is no letter. -/
def wordUnit (c : Char) : Bool := c.toNat < 0x10000 && L.plain c

def isLeadingSign (signs : Signs) (before : Text) : Bool :=
  match signs, before with
  | _, [] => false
  | .marked, char :: _ => char == '-'
  | .page, char :: rest => isDash char && !(rest.head?.any fun c => wordUnit L c || isDash c)

def isTrailingSign (signs : Signs) (after : Text) : Bool :=
  match signs, after with
  | _, [] => false
  | .marked, char :: _ => char == '-'
  | .page, char :: rest => isDash char && rest.head?.all isSpace

/-- Whether `needle` occurs in `haystack` without losing a sign. -/
def occursWithItsSign (haystack needle : Text) (signs : Signs) : Bool :=
  let opensWithNumber := needle.head?.any fun c => c.isDigit || isCurrency c
  let closesWithNumber := needle.getLast?.any Char.isDigit
  needle != [] && (Place.all haystack).any fun c =>
    needle.isPrefixOf c.after && !(opensWithNumber && isLeadingSign L signs c.before) &&
      !(closesWithNumber && isTrailingSign signs (c.after.drop needle.length))

/-! ## `matchOnPage` -/

inductive QuoteMatch
  | exact
  | separator
  | punctuation
  | ocrConfusion
deriving DecidableEq

/-- One page's answer: the tier that found the quote, and the page and quote as that tier read them. -/
structure PageMatch where
  matchedBy : QuoteMatch
  reason : Option Text
  pageAsRead : Text
  quoteAsRead : Text
  positioned : Bool

def matchOnPage (quote page : Text) : Option PageMatch :=
  let unmarked := withoutInlineMarkup page
  let quotedUnmarked := withoutInlineMarkup quote
  let onPage := asLaidOut unmarked
  let quoted := asLaidOut quotedUnmarked
  if occursWithItsSign L (normalise T unmarked) (normalise T quotedUnmarked) .page then
    some ⟨.exact, none, normalise T unmarked, normalise T quotedUnmarked, true⟩
  else if occursWithItsSign L (normalise T onPage) (normalise T quoted) .page then
    some ⟨.separator,
      some ("matched once the layout was read as spacing: column rules (|, I, l) as one glyph, " ++
        "table cells as spaces, and every dash as a hyphen").toList,
      normalise T onPage, normalise T quoted, true⟩
  else if occursWithItsSign L (alphanumeric T L onPage) (alphanumeric T L quoted) .marked then
    some ⟨.punctuation, some "matched ignoring punctuation".toList, normalise T onPage, normalise T quoted, false⟩
  else if occursWithItsSign L (glyphFolded T L onPage) (glyphFolded T L quoted) .marked then
    some ⟨.ocrConfusion, some "matched only after allowing for glyphs OCR confuses (O/0, I/1, S/5)".toList,
      foldNumberGlyphs (normalise T onPage), foldNumberGlyphs (normalise T quoted), false⟩
  else none

/-! ## `checkQuote` -/

structure QuoteCheck where
  verified : Option Bool
  matchedBy : Option QuoteMatch
  reason : Option Text
  /-- The page the quote was found on, when that is not the page it cited. -/
  foundOnPage : Option Nat
  /-- Whether the page prints a money field's amount whole where it was quoted. -/
  amountPrintedWhole : Option Bool
deriving DecidableEq

structure MoneyToFind where
  kind : MoneyKind
  value : Text

/-- The page a model cited: any number. -/
inductive SourcePage
  | finite (x : ℚ)
  /-- `NaN` or an infinity, as it is printed. -/
  | notFinite (printed : Text)

def SourcePage.printed : SourcePage → Text
  | .finite x => numberToString x
  | .notFinite printed => printed

/-- `Number.isInteger(sourcePage) ? pageText[sourcePage - 1] : undefined`. -/
def citedPage (pageText : List Text) : SourcePage → Option Text
  | .finite x => if x.den = 1 ∧ 1 ≤ x.num then pageText[(x.num - 1).toNat]? else none
  | .notFinite _ => none

def refused (reason : Text) (amountPrintedWhole : Option Bool) : QuoteCheck :=
  ⟨some false, none, some reason, none, amountPrintedWhole⟩

/-- `withAmount`: the answer for a quote found on a page, once a money field's amount has been looked for there. -/
def withAmount (found : QuoteCheck) (pageMatch : PageMatch) (money : Option MoneyToFind) : QuoteCheck :=
  match money with
  | none => found
  | some money =>
    if !money.value.any Char.isDigit then found
    else if !readsAsMoney T money.kind money.value then
      refused ("the quote is on the page, but ".toList ++ Js.quote money.value ++ " cannot be read to the cent".toList) (some false)
    else
      let spans := if pageMatch.positioned then some (spansOf pageMatch.pageAsRead pageMatch.quoteAsRead) else none
      if amountPrintedWhole T L money.kind money.value pageMatch.quoteAsRead pageMatch.pageAsRead spans then
        { found with amountPrintedWhole := some true }
      else
        refused ("the quote is on the page, but ".toList ++ Js.quote money.value ++
          " is not printed there whole, to the cent".toList) (some false)

/-- The pages that hold a quote. -/
def holding (quote : Text) (pageText : List Text) : List (Nat × PageMatch) :=
  pageText.zipIdx.filterMap fun entry => (matchOnPage T L quote entry.1).map fun found => (entry.2 + 1, found)

def pages (pageText : List Text) : Text :=
  if pageText.length = 1 then "one page".toList else decimal pageText.length ++ " pages".toList

/-- The answer for a quote whose cited page does not exist. -/
def checkElsewhere (quote : Text) (sourcePage : SourcePage) (pageText : List Text) (money : Option MoneyToFind) :
    QuoteCheck :=
  let citation := "cited page ".toList ++ sourcePage.printed ++ " does not exist".toList
  match holding T L quote pageText with
  | [(page, found)] =>
    withAmount T L
      ⟨some true, some found.matchedBy,
        some (citation ++ " (the document has ".toList ++ pages pageText ++ "); the quote is on page ".toList ++
          decimal page ++ " and no other".toList ++ (found.reason.map (", ".toList ++ ·)).getD []),
        some page, none⟩
      found money
  | [] => refused (citation ++ ", and the quote is on none of the ".toList ++ pages pageText ++ " that do".toList) none
  | found => refused (citation ++ ", and the quote is on pages ".toList ++
      List.intercalate ", ".toList (found.map fun h => decimal h.1) ++
      ", so which one it came from would be a guess".toList) none

/-- Checks one quote against the pages' text. -/
def checkQuote (quote : Text) (sourcePage : SourcePage) (pageText : Option (List Text)) (money : Option MoneyToFind) :
    QuoteCheck :=
  match pageText with
  | none | some [] => ⟨none, none, some "no text layer".toList, none, none⟩
  | some pageText =>
    match citedPage pageText sourcePage with
    | none => checkElsewhere T L quote sourcePage pageText money
    | some page =>
      match matchOnPage T L quote page with
      | none => refused "quote not found on the cited page".toList none
      | some found => withAmount T L ⟨some true, some found.matchedBy, found.reason, none, none⟩ found money

end

end Recouple.Quotes
