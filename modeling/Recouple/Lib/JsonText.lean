import Recouple.Lib.Text

/-!
# Reading JSON and form-encoded text

`parse` is ECMA-404 as `JSON.parse` reads it, except that an object keeps every field it is written with: two readers
of one text may each take another of two fields of one name. Strings are UTF-16 code units, since an escape can write
an unpaired surrogate. `formPairs` is the `application/x-www-form-urlencoded` parser of the URL standard.
-/

namespace Js

/-- A JSON text as it is written. -/
inductive Written
  | null
  | bool (b : Bool)
  | num (literal : Text)
  | str (units : List Nat)
  | arr (items : List Written)
  | obj (fields : List (List Nat × Written))

namespace Written

def isBlank (c : Char) : Bool := c = ' ' || c = '\t' || c = '\n' || c = '\r'

def skip (t : Text) : Text := t.dropWhile isBlank

def hexDigit? (c : Char) : Option Nat :=
  if c.isDigit then some (c.toNat - 48)
  else if 'a' ≤ c ∧ c ≤ 'f' then some (c.toNat - 87)
  else if 'A' ≤ c ∧ c ≤ 'F' then some (c.toNat - 55)
  else none

def escapeOf : Char → Option Nat
  | '"' => some 34
  | '\\' => some 92
  | '/' => some 47
  | 'b' => some 8
  | 'f' => some 12
  | 'n' => some 10
  | 'r' => some 13
  | 't' => some 9
  | _ => none

/-- The rest of a string literal, past its opening quote. -/
def stringRest : Text → Option (List Nat × Text)
  | [] => none
  | '"' :: rest => some ([], rest)
  | '\\' :: 'u' :: a :: b :: c :: d :: rest => do
    let unit := (((← hexDigit? a) * 16 + (← hexDigit? b)) * 16 + (← hexDigit? c)) * 16 + (← hexDigit? d)
    let (more, rest) ← stringRest rest
    return (unit :: more, rest)
  | '\\' :: e :: rest => do
    let unit ← escapeOf e
    let (more, rest) ← stringRest rest
    return (unit :: more, rest)
  | c :: rest =>
    if c.toNat < 32 || c = '\\' then none
    else do
      let (more, rest) ← stringRest rest
      return (units c ++ more, rest)

def digits (t : Text) : Text × Text := (t.takeWhile Char.isDigit, t.dropWhile Char.isDigit)

/-- `-? (0 | [1-9][0-9]*) (.[0-9]+)? ([eE][+-]?[0-9]+)?` -/
def number (t : Text) : Option (Text × Text) := do
  let (sign, t) := if t.head? = some '-' then (['-'], t.tail) else ([], t)
  let (whole, t) := if t.head? = some '0' then (['0'], t.tail) else digits t
  guard (whole ≠ [])
  let (fraction, t) ← if t.head? = some '.' then
      (let (ds, t) := digits t.tail; if ds = [] then none else some ('.' :: ds, t)) else some ([], t)
  let (exponent, t) ← match t with
    | e :: t' =>
      if e = 'e' || e = 'E' then
        (let (s, t') := match t' with
          | '+' :: r => (['+'], r)
          | '-' :: r => (['-'], r)
          | r => ([], r)
         let (ds, t') := digits t'
         if ds = [] then none else some (e :: s ++ ds, t'))
      else some ([], e :: t')
    | [] => some ([], [])
  return (sign ++ whole ++ fraction ++ exponent, t)

mutual
/-- One value; each call passes at most one token, so twice the length of the text is enough of `fuel`. -/
def value : Nat → Text → Option (Written × Text)
  | 0, _ => none
  | fuel + 1, t =>
    match skip t with
    | 'n' :: 'u' :: 'l' :: 'l' :: rest => some (.null, rest)
    | 't' :: 'r' :: 'u' :: 'e' :: rest => some (.bool true, rest)
    | 'f' :: 'a' :: 'l' :: 's' :: 'e' :: rest => some (.bool false, rest)
    | '"' :: rest => do
      let (text, rest) ← stringRest rest
      return (.str text, rest)
    | '[' :: rest =>
      match skip rest with
      | ']' :: rest => some (.arr [], rest)
      | rest => do
        let (its, rest) ← items fuel rest
        return (.arr its, rest)
    | '{' :: rest =>
      match skip rest with
      | '}' :: rest => some (.obj [], rest)
      | rest => do
        let (fields, rest) ← fieldsRest fuel rest
        return (.obj fields, rest)
    | t => do
      let (literal, rest) ← number t
      return (.num literal, rest)

/-- Items up to the closing bracket. -/
def items : Nat → Text → Option (List Written × Text)
  | 0, _ => none
  | fuel + 1, t => do
    let (v, rest) ← value fuel t
    match skip rest with
    | ']' :: rest => return ([v], rest)
    | ',' :: rest =>
      let (vs, rest) ← items fuel rest
      return (v :: vs, rest)
    | _ => none

/-- Fields up to the closing brace. -/
def fieldsRest : Nat → Text → Option (List (List Nat × Written) × Text)
  | 0, _ => none
  | fuel + 1, t =>
    match skip t with
    | '"' :: rest => do
      let (key, rest) ← stringRest rest
      match skip rest with
      | ':' :: rest =>
        let (v, rest) ← value fuel rest
        match skip rest with
        | '}' :: rest => return ([(key, v)], rest)
        | ',' :: rest =>
          let (fs, rest) ← fieldsRest fuel rest
          return ((key, v) :: fs, rest)
        | _ => none
      | _ => none
    | _ => none
end

/-- The whole text as one value. -/
def parse (t : Text) : Option Written := do
  let (v, rest) ← value (2 * t.length + 2) t
  guard (skip rest = [])
  return v

/-! ### Writing an object of one field -/

/-- A character as it is written in a string literal. -/
def escaped (c : Char) : Text :=
  if c = '"' then ['\\', '"']
  else if c = '\\' then ['\\', '\\']
  else if c.toNat < 32 then ['\\', 'u', '0', '0', Nat.digitChar (c.toNat / 16), Nat.digitChar (c.toNat % 16)]
  else [c]

def quoted (t : Text) : Text := '"' :: (t.flatMap escaped ++ ['"'])

theorem hexDigit?_digitChar {n : Nat} (h : n < 16) : hexDigit? (Nat.digitChar n) = some n := by
  interval_cases n <;> decide

theorem stringRest_escaped (c : Char) (rest : Text) :
    stringRest (escaped c ++ rest) = (stringRest rest).map fun p => (units c ++ p.1, p.2) := by
  unfold escaped
  split
  · rename_i h
    subst h
    rw [List.cons_append, List.cons_append, List.nil_append, stringRest]
    · cases stringRest rest <;> rfl
    · rintro a b c d rest ⟨⟩
  · rename_i hquote
    split
    · rename_i h
      subst h
      rw [List.cons_append, List.cons_append, List.nil_append, stringRest]
      · cases stringRest rest <;> rfl
      · rintro a b c d rest ⟨⟩
    · rename_i hslash
      split
      · rename_i hcontrol
        have hunits : units c = [c.toNat] := by
          unfold units
          rw [if_pos (by omega)]
        simp only [List.cons_append, List.nil_append]
        rw [stringRest, hexDigit?_digitChar (by omega), hexDigit?_digitChar (by omega),
          show hexDigit? '0' = some 0 from by decide, hunits]
        cases stringRest rest with
        | none => rfl
        | some p =>
          have hunit : ((0 * 16 + 0) * 16 + c.toNat / 16) * 16 + c.toNat % 16 = c.toNat := by omega
          show some ((((0 * 16 + 0) * 16 + c.toNat / 16) * 16 + c.toNat % 16) :: p.1, p.2) = _
          rw [hunit]
          rfl
      · rename_i hplain
        rw [List.singleton_append, stringRest]
        · rw [if_neg (by simp [hplain, hslash])]
          cases stringRest rest <;> rfl
        · exact fun h => hquote h
        · exact fun _ _ _ _ _ h => absurd h hslash
        · exact fun _ _ h => absurd h hslash

theorem stringRest_quoted (t rest : Text) : stringRest (t.flatMap escaped ++ '"' :: rest) = some (codeUnits t, rest) := by
  induction t with
  | nil => rw [List.flatMap_nil, List.nil_append, stringRest]; rfl
  | cons c cs ih =>
    rw [List.flatMap_cons, List.append_assoc, stringRest_escaped, ih]
    rfl

/-- The text of an object of one field whose value is a text. -/
def oneField (field value : Text) : Text := '\x7b' :: (quoted field ++ ':' :: (quoted value ++ ['\x7d']))

theorem skip_cons {c : Char} (h : isBlank c = false) (rest : Text) : skip (c :: rest) = c :: rest :=
  List.dropWhile_cons_of_neg (by simp [h])

theorem value_quote (fuel : Nat) (rest : Text) :
    value (fuel + 1) ('"' :: rest) = (stringRest rest).map fun p => (.str p.1, p.2) := by
  rw [value, skip_cons (by decide)]
  show (stringRest rest).bind _ = _
  cases stringRest rest <;> rfl

theorem fieldsRest_quote (fuel : Nat) (rest : Text) {key : List Nat} {v : Written} {more : Text}
    (hkey : stringRest rest = some (key, ':' :: more)) (hvalue : value fuel more = some (v, ['\x7d'])) :
    fieldsRest (fuel + 1) ('"' :: rest) = some ([(key, v)], []) := by
  rw [fieldsRest, skip_cons (by decide)]
  show (stringRest rest).bind _ = _
  rw [hkey]
  rw [Option.bind_some]
  dsimp only
  rw [skip_cons (by decide)]
  show (value fuel more).bind _ = _
  rw [hvalue]
  rfl

theorem value_brace (fuel : Nat) {rest : Text} (hquote : rest.head? = some '"')
    {fields : List (List Nat × Written)} {more : Text} (h : fieldsRest fuel rest = some (fields, more)) : value (fuel + 1) ('\x7b' :: rest) = some (.obj fields, more) := by
  obtain ⟨tail, rfl⟩ := List.head?_eq_some_iff.1 hquote
  have hskip : skip ('"' :: tail) = '"' :: tail := skip_cons (by decide) tail
  rw [value, skip_cons (by decide)]
  simp [hskip, h]

theorem stringRest_quoted_append (t rest : Text) :
    stringRest ((t.flatMap escaped ++ ['"']) ++ rest) = some (codeUnits t, rest) := by
  rw [List.append_assoc, List.singleton_append, stringRest_quoted]

theorem parse_oneField (field v : Text) :
    parse (oneField field v) = some (.obj [(codeUnits field, .str (codeUnits v))]) := by
  obtain ⟨fuel, hfuel⟩ : ∃ fuel, 2 * (oneField field v).length + 2 = fuel + 4 :=
    ⟨2 * (quoted field ++ ':' :: (quoted v ++ ['\x7d'])).length, by rw [oneField, List.length_cons]; omega⟩
  unfold parse
  rw [hfuel]
  have hvalue : value (fuel + 2) (quoted v ++ ['\x7d']) = some (.str (codeUnits v), ['\x7d']) := by
    rw [quoted, List.cons_append, value_quote, stringRest_quoted_append]
    rfl
  have hfields : fieldsRest (fuel + 3) (quoted field ++ ':' :: (quoted v ++ ['\x7d'])) =
      some ([(codeUnits field, .str (codeUnits v))], []) :=
    fieldsRest_quote _ _ (stringRest_quoted_append field _) hvalue
  rw [oneField, value_brace _ rfl hfields]
  rfl

end Written

/-! ## Form-encoded text -/

/-- A UTF-8 decoder between two bytes: how many are still due, the bounds of the next, and the bits so far. -/
structure Due where
  more : Nat
  lower : Nat
  upper : Nat
  bits : Nat

/-- The first byte of a code point: the character it is, or what is still due. -/
def leadByte (b : Nat) : Option Char × Option Due :=
  if b < 0x80 then (some (Char.ofNat b), none)
  else if b < 0xC2 then (some (Char.ofNat 0xFFFD), none)
  else if b < 0xE0 then (none, some ⟨1, 0x80, 0xBF, b - 0xC0⟩)
  else if b < 0xF0 then
    (none, some ⟨2, if b = 0xE0 then 0xA0 else 0x80, if b = 0xED then 0x9F else 0xBF, b - 0xE0⟩)
  else if b < 0xF5 then
    (none, some ⟨3, if b = 0xF0 then 0x90 else 0x80, if b = 0xF4 then 0x8F else 0xBF, b - 0xF0⟩)
  else (some (Char.ofNat 0xFFFD), none)

/-- UTF-8, with a replacement character for what is none. -/
def decodeUtf8From : Option Due → List Nat → Text
  | none, [] => []
  | some _, [] => [Char.ofNat 0xFFFD]
  | none, b :: bs => (leadByte b).1.toList ++ decodeUtf8From (leadByte b).2 bs
  | some due, b :: bs =>
    if due.lower ≤ b ∧ b ≤ due.upper then
      if due.more = 1 then Char.ofNat (due.bits * 64 + (b - 0x80)) :: decodeUtf8From none bs
      else decodeUtf8From (some ⟨due.more - 1, 0x80, 0xBF, due.bits * 64 + (b - 0x80)⟩) bs
    else Char.ofNat 0xFFFD :: (leadByte b).1.toList ++ decodeUtf8From (leadByte b).2 bs

/-- The bytes of a form-encoded name or value. -/
def formBytes : Text → List Nat
  | '%' :: t@(a :: b :: rest) =>
    match Written.hexDigit? a, Written.hexDigit? b with
    | some a, some b => (a * 16 + b) :: formBytes rest
    | _, _ => '%'.toNat :: formBytes t
  | '+' :: rest => ' '.toNat :: formBytes rest
  | c :: rest => (String.utf8EncodeChar c).map (·.toNat) ++ formBytes rest
  | [] => []

def formDecode (t : Text) : Text := decodeUtf8From none (formBytes t)

/-- The names and values of `new URLSearchParams(text)`, in order. -/
def formPairs (t : Text) : List (Text × Text) :=
  ((((if t.head? = some '?' then t.tail else t).splitOn '&').filter (· ≠ [])).map fun piece =>
    (formDecode (piece.takeWhile (· ≠ '=')), formDecode ((piece.dropWhile (· ≠ '=')).drop 1)))

end Js
