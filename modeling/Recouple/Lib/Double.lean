import Mathlib
import Recouple.Lib.Json

/-!
# Finite doubles and JSON values

A finite double is the rational it stands for, so `-0` and `0` are one value here. `roundDouble` is the
rounding ECMAScript does wherever a number is read or computed; `numberToString`, `toFixed2` and
`numberFrom` write doubles and read them back. `Value` is what `JSON.parse` returns.
-/

namespace Js

/-! ## Rounding -/

/-- To the nearest integer, ties to the even one. -/
def roundHalfEven (q : ℚ) : Int :=
  let f := ⌊q⌋
  if q - f < 1 / 2 ∨ (q - f = 1 / 2 ∧ f % 2 = 0) then f else f + 1

/-- The double nearest to a rational, ties to the even one; `none` is `Infinity` or `-Infinity`. -/
def roundDouble (x : ℚ) : Option ℚ :=
  if x = 0 then some 0
  else
    -- the spacing of doubles at `x`, no smaller than that of the subnormal ones
    let u : ℚ := 2 ^ max (Int.log 2 |x| - 52) (-1074)
    let r := roundHalfEven (|x| / u) * u
    if 2 ^ 1024 ≤ r then none else some (if x < 0 then -r else r)

/-! ## Texts -/

/-- The fewest digits that round to a positive double, and the place of the point among them. -/
def shortestDigits (x : ℚ) : Text × Int :=
  let n := Int.log 10 x + 1
  ((List.range 17).findSome? fun i =>
    let p : ℚ := 10 ^ (n - (i + 1))
    let f := (⌊x / p⌋).toNat
    let near := if x / p - f ≤ 1 / 2 then [f, f + 1] else [f + 1, f]
    (near.find? fun s : Nat => decide (roundDouble ((s : ℚ) * p) = some x)).map fun s : Nat =>
      ((decimal s).rdropWhile (· = '0'), n + (decimal s).length - (i + 1))).getD ([], 0)

/-- `Number::toString` of a positive double. -/
def positiveToString (x : ℚ) : Text :=
  let (digits, n) := shortestDigits x
  let k := digits.length
  if k ≤ n ∧ n ≤ 21 then digits ++ List.replicate (n - k).toNat '0'
  else if 0 < n ∧ n ≤ 21 then digits.take n.toNat ++ '.' :: digits.drop n.toNat
  else if -6 < n ∧ n ≤ 0 then '0' :: '.' :: List.replicate (-n).toNat '0' ++ digits
  else
    digits.take 1 ++ (if k = 1 then [] else '.' :: digits.drop 1) ++
      'e' :: (if n - 1 < 0 then '-' else '+') :: decimal (n - 1).natAbs

/-- `String(x)`. -/
def numberToString (x : ℚ) : Text :=
  if x = 0 then ['0'] else if x < 0 then '-' :: positiveToString (-x) else positiveToString x

/-- `x.toFixed(2)` for `x ≥ 0`: the larger of two hundredths that are equally near. -/
def toFixedAbs (x : ℚ) : Text :=
  if 10 ^ 21 ≤ x then positiveToString x
  else
    let digits := decimal ⌊x * 100 + 1 / 2⌋.toNat
    let digits := List.replicate (3 - digits.length) '0' ++ digits
    digits.take (digits.length - 2) ++ '.' :: digits.drop (digits.length - 2)

/-- `x.toFixed(2)`. -/
def toFixed2 (x : ℚ) : Text := if x < 0 then '-' :: toFixedAbs (-x) else toFixedAbs x

/-- A decimal literal of the shapes the two functions above write. -/
def decimalLiteral (t : Text) : Option ℚ :=
  let whole := t.takeWhile Char.isDigit
  let rest := t.dropWhile Char.isDigit
  let (fraction, rest) :=
    match rest with
    | '.' :: after => (after.takeWhile Char.isDigit, after.dropWhile Char.isDigit)
    | _ => ([], rest)
  let mantissa : ℚ := Nat.ofDigitChars 10 (whole ++ fraction) 0 / 10 ^ fraction.length
  if whole = [] then none
  else
    match rest with
    | [] => some mantissa
    | 'e' :: sign :: exponent =>
      if exponent ≠ [] ∧ exponent.all Char.isDigit ∧ (sign = '+' ∨ sign = '-') then
        let e : Int := Nat.ofDigitChars 10 exponent 0
        some (mantissa * 10 ^ (if sign = '-' then -e else e))
      else none
    | _ => none

/-- `Number(t)` for such a text: `none` where it is no finite number. -/
def numberFrom : Text → Option ℚ
  | '-' :: t => (decimalLiteral t).bind fun x => roundDouble (-x)
  | t => (decimalLiteral t).bind roundDouble

example : toFixed2 (-49 - 99 / 100) = "-49.99".toList ∧ toFixed2 (1 / 8) = "0.13".toList := by decide +kernel

/-! ## JSON values -/

/-- What `JSON.parse` returns: an object lists each of its keys once. -/
inductive Value
  | null
  | bool (b : Bool)
  | num (x : ℚ)
  /-- A literal past the largest finite double. -/
  | infinity (negative : Bool)
  | str (t : Text)
  | arr (items : List Value)
  | obj (fields : List (Text × Value))

mutual
/-- `JSON.stringify(value)`. -/
def compact : Value → Text
  | .null => "null".toList
  | .bool b => if b then "true".toList else "false".toList
  | .num x => numberToString x
  | .infinity _ => "null".toList
  | .str t => quote t
  | .arr items => '[' :: (compactItems items).drop 1 ++ [']']
  | .obj fields => '\x7b' :: (compactFields fields).drop 1 ++ ['\x7d']
/-- Each item with a comma before it. -/
def compactItems : List Value → Text
  | [] => []
  | v :: vs => ',' :: compact v ++ compactItems vs
def compactFields : List (Text × Value) → Text
  | [] => []
  | (k, v) :: fs => ',' :: quote k ++ ':' :: compact v ++ compactFields fs
end

end Js
