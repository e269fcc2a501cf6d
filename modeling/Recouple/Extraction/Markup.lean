import Recouple.Lib.Matcher

/-!
# The text a page prints: `packages/extraction/src/markup.ts`

`withoutInlineMarkup` takes out the tags that draw a run and decodes the escapes an HTML serialiser writes;
`asLaidOut` reads table cells as spaces, a column rule as `|` and every dash as a hyphen.
-/

namespace Recouple.Quotes
open Js Js.Pattern

/-- `(?:\s[^<>]*)?`, what a tag has after its name. -/
def tagRest : Pattern Unit := do
  let _ ← optional do
    one isSpace
    star (one fun c => c != '<' && c != '>')

def tagNamed (names : List Text) : Pattern Unit := do
  one (· == '<')
  let _ ← optional (one (· == '/'))
  oneOf (names.map word)
  tagRest

/-- `FORMATTING_TAG`. -/
def formattingTag : Pattern Text := do
  tagNamed ["b", "strong", "i", "em", "u", "ins", "s", "strike", "del", "mark", "sub", "sup", "small", "span", "font"]
  one (· == '>')
  pure []

/-- `LINE_BREAK`: `/<br\s*\/?>/gi`. -/
def lineBreak : Pattern Text := do
  word "<br"
  star (one isSpace)
  let _ ← optional (one (· == '/'))
  one (· == '>')
  pure ['\n']

def isHexDigit (c : Char) : Bool := c.isDigit || ('a' ≤ c && c ≤ 'f') || ('A' ≤ c && c ≤ 'F')

def hexDigitValue (c : Char) : Nat := if c.isDigit then c.toNat - 48 else c.toLower.toNat - 87

/-- `codePoint`: the character, or the reference as it is. -/
def codePoint (value : Nat) (reference : Text) : Text :=
  if 0 < value ∧ value ≤ 0x10FFFF ∧ ¬ (0xD800 ≤ value ∧ value ≤ 0xDFFF) then [Char.ofNat value] else reference

/-- `NAMED`. -/
def named : List (Text × Char) :=
  [("amp", '&'), ("lt", '<'), ("gt", '>'), ("quot", '"'), ("apos", '\''), ("nbsp", '\u00A0')]

/-- `#(\d{1,7})`. -/
def decimalReference : Pattern (Text → Text) := do
  one (· == '#')
  let decimal ← captured do
    one Char.isDigit
    atMost (one Char.isDigit) 6
  pure (codePoint (Nat.ofDigitChars 10 decimal 0))

/-- `#[xX]([0-9a-fA-F]{1,6})`. -/
def hexReference : Pattern (Text → Text) := do
  one (· == '#')
  one fun c => c == 'x' || c == 'X'
  let hex ← captured do
    one isHexDigit
    atMost (one isHexDigit) 5
  pure (codePoint (hex.foldl (fun n c => 16 * n + hexDigitValue c) 0))

def exactly : Text → Pattern Unit
  | [] => pure ()
  | x :: xs => do one (· == x); exactly xs

/-- `ENTITY`, and what replaces it. -/
def entity : Pattern Text := replacing do
  one (· == '&')
  let decode ← oneOf
    [decimalReference, hexReference, oneOf (named.map fun entry => do exactly entry.1; pure fun _ => [entry.2])]
  one (· == ';')
  pure decode

def withoutInlineMarkup (text : Text) : Text := replace entity (replace lineBreak (replace formattingTag text))

/-- `COLUMN_RULE`: `/(^|\s)[|Il!¦│](?=\s|$)/g`. -/
def columnRule : Pattern Text := do
  let before ← captured (either atStart (one isSpace))
  one fun c => "|Il!¦│".toList.contains c
  ahead (either (one isSpace) atEnd)
  pure (before ++ ['|'])

/-- `withColumnRules`: twice, as adjacent rules share the white space between them. -/
def withColumnRules (text : Text) : Text := replace columnRule (replace columnRule text)

/-- `TABLE_TAG`. -/
def tableTag : Pattern Text := do
  tagNamed ["table", "caption", "colgroup", "col", "thead", "tbody", "tfoot", "tr", "th", "td"]
  let _ ← optional (one (· == '/'))
  one (· == '>')
  pure [' ']

def withTableCellsAsSpaces (text : Text) : Text := replace tableTag text

/-- `DASH_CLASS`. -/
def isDash (c : Char) : Bool :=
  c == '-' || (0x2010 ≤ c.toNat && c.toNat ≤ 0x2015) || c.toNat == 0x2212 || c.toNat == 0xFE58 ||
    c.toNat == 0xFE63 || c.toNat == 0xFF0D

def withDashesAsHyphens (text : Text) : Text := text.map fun c => if isDash c then '-' else c

def asLaidOut (text : Text) : Text := withDashesAsHyphens (withColumnRules (withTableCellsAsSpaces text))

end Recouple.Quotes
