import Recouple.Core.CalendarDays
import Recouple.Lib.Json

/-!
# Dates: `packages/core-domain/src/dates.ts` (14-190) and `dispute-windows.ts` (14-82)

| here | there |
| --- | --- |
| `yearOf`, `monthAndDay`, `toISOString` | `new Date(…).toISOString()` of a whole day |
| `assemble`, `parsePrintedDate` | `dates.ts` (53, 97) |
| `serialMatch`, `excelSerialToIso` | 171 |
| `dateParse`, `isIsoDate` | `payer-code-map.ts` (95-101) |
| `deadlineFromWindow` | `dispute-windows.ts` (75) |

A `Date` here is a whole day, by its number (`dayNumber`): the days before the year 0 are none that the code forms. A
window is an integer.
-/

namespace Recouple.Dates
open Js

/-! ## Days of the calendar -/

/-- The number of the first of January. -/
def newYear (year : Nat) : Nat := dayNumber year 1 1

/-- The year of the day of that number: the one its share of 400 years names, or one of the two before. -/
def yearOf (n : Nat) : Nat :=
  let guess := n * 400 / 146097 + 1
  if newYear guess ≤ n then guess else if newYear (guess - 1) ≤ n then guess - 1 else guess - 2

/-- The month and the day that so many days of the months lead to. -/
def monthAndDay (year : Nat) : List Nat → Nat → Nat × Nat
  | [], rest => (12, rest + 1)
  | month :: months, rest =>
    if rest < daysInMonth year month then (month, rest + 1)
    else monthAndDay year months (rest - daysInMonth year month)

/-- `date.toISOString()`: a year past 9999 is written with a sign and six digits. -/
def toISOString (n : Nat) : Text :=
  let year := yearOf n
  let monthDay := monthAndDay year (List.range' 1 12) (n - newYear year)
  (if year ≤ 9999 then padded 4 year else '+' :: padded 6 year) ++
    '-' :: (padded 2 monthDay.1 ++ '-' :: (padded 2 monthDay.2 ++ "T00:00:00.000Z".toList))

/-- `date.toISOString().slice(0, 10)` -/
def isoOf (n : Nat) : Text := (toISOString n).take 10

example : isoOf (dayNumber 2024 2 29) = "2024-02-29".toList := by decide +kernel

/-! ## Printed dates -/

inductive DateParseError
  | empty
  | yearOutOfRange (original : Text)
  | notAMonth (month : Nat) (original : Text)
  | notADay (original : Text) (year month day : Nat)
  | unknownMonth (original : Text)
  | unreadable (original : Text)
deriving DecidableEq

def MIN_YEAR : Nat := 2000
def MAX_YEAR : Nat := 2100

def DateParseError.message : DateParseError → Text
  | .empty => "cannot parse a date from an empty string".toList
  | .yearOutOfRange original =>
    "year out of range [".toList ++ decimal MIN_YEAR ++ ", ".toList ++ decimal MAX_YEAR ++ "] in ".toList ++
      quote original
  | .notAMonth month original => "month ".toList ++ decimal month ++ " is not a month in ".toList ++ quote original
  | .notADay original year month day =>
    quote original ++ " is not a calendar day: ".toList ++ decimal year ++ '-' :: (decimal month ++
      (" has no day ".toList ++ decimal day))
  | .unknownMonth original => "unknown month name in ".toList ++ quote original
  | .unreadable original => "cannot parse a date from ".toList ++ quote original

def MONTHS : List (Text × Nat) :=
  [("january", 1), ("jan", 1), ("february", 2), ("feb", 2), ("march", 3), ("mar", 3), ("april", 4), ("apr", 4),
    ("may", 5), ("june", 6), ("jun", 6), ("july", 7), ("jul", 7), ("august", 8), ("aug", 8), ("september", 9),
    ("sept", 9), ("sep", 9), ("october", 10), ("oct", 10), ("november", 11), ("nov", 11), ("december", 12), ("dec", 12)].map
    fun (name, month) => (name.toList, month)

def assemble (year month day : Nat) (original : Text) : Except DateParseError Text :=
  if year < MIN_YEAR ∨ MAX_YEAR < year then .error (.yearOutOfRange original)
  else if month < 1 ∨ 12 < month then .error (.notAMonth month original)
  else if day < 1 ∨ daysInMonth year month < day then .error (.notADay original year month day)
  else .ok (padded 4 year ++ '-' :: (padded 2 month ++ '-' :: padded 2 day))

inductive DateOrder
  | mdy
  | dmy
  | ymd
deriving DecidableEq

/-- `\d{1,2}` before what is no digit. -/
def oneOrTwo (text : Text) : Option (Nat × Text) :=
  let run := text.takeWhile Char.isDigit
  if run.length = 1 ∨ run.length = 2 then some (digitsOf run, text.dropWhile Char.isDigit) else none

/-- `(\d{4})$` -/
def fourLast (text : Text) : Option Nat :=
  (digits 4 text).bind fun (value, rest) => if rest = [] then some value else none

/-- A character of the class. -/
def oneOf (chars : List Char) : Text → Option (Char × Text)
  | c :: rest => if c ∈ chars then some (c, rest) else none
  | [] => none

/-- `c?` -/
def optionally (c : Char) (text : Text) : Text := if text.head? = some c then text.tail else text

/-- The pattern `numeric`: a slash or a hyphen, twice the same, between the numbers. -/
def numericParts (working : Text) : Option (Nat × Nat × Nat) := do
  let (first, text) ← oneOrTwo working
  let (separator, text) ← oneOf ['/', '-'] text
  let (second, text) ← oneOrTwo text
  let (_, text) ← oneOf [separator] text
  let year ← fourLast text
  some (first, second, year)

/-- The pattern `yearFirst`: a slash, a point or a hyphen, twice the same. -/
def yearFirstParts (working : Text) : Option (Nat × Nat × Nat) := do
  let (year, text) ← digits 4 working
  let (separator, text) ← oneOf ['/', '.', '-'] text
  let (month, text) ← oneOrTwo text
  let (_, text) ← oneOf [separator] text
  let (day, text) ← oneOrTwo text
  if text = [] then some (year, month, day) else none

/-- `([A-Za-z]+)`, in lower case. -/
def monthName (text : Text) : Option (Text × Text) :=
  let name := text.takeWhile Char.isAlpha
  if name = [] then none else some (name.map Char.toLower, text.dropWhile Char.isAlpha)

/-- `(?:st|nd|rd|th)?`, in any case. -/
def pastOrdinal (text : Text) : Text :=
  if (text.take 2).map Char.toLower ∈ ["st".toList, "nd".toList, "rd".toList, "th".toList] then text.drop 2 else text

/-- `/^([A-Za-z]+)\.? ?(\d{1,2})(?:st|nd|rd|th)?,? (\d{4})$/i` -/
def monthFirstParts (working : Text) : Option (Text × Nat × Nat) := do
  let (name, text) ← monthName working
  let (day, text) ← oneOrTwo (optionally ' ' (optionally '.' text))
  let (_, text) ← oneOf [' '] (optionally ',' (pastOrdinal text))
  let year ← fourLast text
  some (name, day, year)

/-- `/^(\d{1,2})(?:st|nd|rd|th)? ([A-Za-z]+)\.?,? (\d{4})$/i` -/
def dayFirstParts (working : Text) : Option (Nat × Text × Nat) := do
  let (day, text) ← oneOrTwo working
  let (_, text) ← oneOf [' '] (pastOrdinal text)
  let (name, text) ← monthName text
  let (_, text) ← oneOf [' '] (optionally ',' (optionally '.' text))
  let year ← fourLast text
  some (day, name, year)

/-- The forms with the name of a month. -/
def parseNamed (original working : Text) : Except DateParseError Text :=
  match monthFirstParts working with
  | some (name, day, year) =>
    match MONTHS.lookup name with
    | some month => assemble year month day original
    | none => .error (.unknownMonth original)
  | none =>
    match dayFirstParts working with
    | some (day, name, year) =>
      match MONTHS.lookup name with
      | some month => assemble year month day original
      | none => .error (.unknownMonth original)
    | none => .error (.unreadable original)

/-- The forms that are numbers alone, then the others. -/
def parseNumeric (original working : Text) (order : DateOrder) : Except DateParseError Text :=
  match numericParts working, order with
  | some (first, second, year), .mdy => assemble year first second original
  | some (first, second, year), .dmy => assemble year second first original
  | _, .ymd =>
    match yearFirstParts working with
    | some (year, month, day) => assemble year month day original
    | none => parseNamed original working
  | none, _ => parseNamed original working

def parsePrintedDate (text : Text) (order : DateOrder) : Except DateParseError Text :=
  let working := collapse (trim text)
  if working = [] then .error .empty
  else
    match dateParts working with
    | some (year, month, day) => assemble year month day text
    | none => parseNumeric text working order

example : parsePrintedDate "Aug. 14th, 2026".toList .mdy = .ok "2026-08-14".toList ∧
    parsePrintedDate " 14/08/2026".toList .dmy = .ok "2026-08-14".toList ∧
    parsePrintedDate "2026.8.14".toList .ymd = .ok "2026-08-14".toList := by decide +kernel

/-! ## Serials -/

/-- Every `RangeError` of the two functions below. -/
inductive DateRangeError
  | notASerial (serial : Text)
  | serialOutOfRange (serial : Text)
  | serialZero
  | serialSixty
  | notIsoDate (deductionDate : Text)
  | notAWindow (windowDays : Int)
deriving DecidableEq

def DateRangeError.message : DateRangeError → Text
  | .notASerial serial => "not a date serial: ".toList ++ quote serial
  | .serialOutOfRange serial => "date serial out of range: ".toList ++ quote serial
  | .serialZero => "date serial 0 is not a day".toList
  | .serialSixty => "date serial 60 is 29 February 1900, which never existed".toList
  | .notIsoDate deductionDate => "deduction date is not a YYYY-MM-DD date: ".toList ++ deductionDate
  | .notAWindow windowDays => "window is not a whole number of days in 1..730: ".toList ++ decimalInt windowDays

/-- `/^(\d+)(?:\.\d*)?$/.exec(serial.trim())?.[1]` -/
def serialMatch (serial : Text) : Option Text :=
  let text := trim serial
  let whole := text.takeWhile Char.isDigit
  if whole = [] then none
  else
    match text.dropWhile Char.isDigit with
    | [] => some whole
    | c :: fraction => if c = '.' ∧ fraction.all Char.isDigit then some whole else none

def excelSerialToIso (serial : Text) (date1904 : Bool) : Except DateRangeError Text :=
  match serialMatch serial with
  | none => .error (.notASerial serial)
  | some whole =>
    match numberOf (digitsOf whole) with
    | none => .error (.serialOutOfRange serial)
    | some days =>
      if maxSafe < days ∨ 2958465 < days then .error (.serialOutOfRange serial)
      else if date1904 then .ok (isoOf (dayNumber 1904 1 1 + days))
      else if days = 0 then .error .serialZero
      else if days = 60 then .error .serialSixty
      else .ok (isoOf (dayNumber 1899 12 31 + if 60 < days then days - 1 else days))

example : excelSerialToIso "59.75".toList false = .ok "1900-02-28".toList ∧
    excelSerialToIso "61".toList false = .ok "1900-03-01".toList := by decide +kernel

/-! ## Windows -/

/-- `Date.parse(value + 'T00:00:00Z')`: a day past the end of its month runs on. -/
def dateParse (value : Text) : Option Nat :=
  (dateParts value).bind fun (year, month, day) =>
    if 1 ≤ month ∧ month ≤ 12 ∧ 1 ≤ day ∧ day ≤ 31 then some (dayNumber year month day) else none

def isIsoDate (value : Text) : Bool := (dateParse value).map isoOf == some value

def DISPUTE_WINDOW_MAX_DAYS : Int := 730

def isDisputeWindowDays (value : Int) : Bool := decide (1 ≤ value ∧ value ≤ DISPUTE_WINDOW_MAX_DAYS)

def deadlineFromWindow (deductionDate : Text) (windowDays : Int) : Except DateRangeError Text :=
  if !isIsoDate deductionDate then .error (.notIsoDate deductionDate)
  else if !isDisputeWindowDays windowDays then .error (.notAWindow windowDays)
  else
    match dateParse deductionDate with
    | some start => .ok (isoOf (start + windowDays.toNat))
    | none => .error (.notIsoDate deductionDate)

example : deadlineFromWindow "2026-08-14".toList 90 = .ok "2026-11-12".toList := by decide +kernel

end Recouple.Dates
