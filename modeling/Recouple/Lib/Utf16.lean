import Recouple.Lib.JsonText
import Recouple.Lib.Number

/-!
# JavaScript strings as code units

`Text` leaves unpaired surrogates out; `Units` is every string there is. `toWellFormed` is what a conversion to UTF-8
makes of one: each unpaired surrogate is read as U+FFFD. `stringify` is `JSON.stringify` on a list of strings, which
writes an unpaired surrogate as an escape, so it loses nothing (`stringify_injective`).
-/

namespace Js

abbrev Units := List UInt16

namespace Units

def isHigh (u : UInt16) : Bool := 0xD800 ≤ u.toNat && u.toNat ≤ 0xDBFF

def isLow (u : UInt16) : Bool := 0xDC00 ≤ u.toNat && u.toNat ≤ 0xDFFF

/-- The code points of the string; an unpaired surrogate stands for itself. -/
def codePoints : Units → List Nat
  | [] => []
  | [u] => [u.toNat]
  | u :: v :: rest =>
    if isHigh u && isLow v then
      (0x10000 + (u.toNat - 0xD800) * 0x400 + (v.toNat - 0xDC00)) :: codePoints rest
    else u.toNat :: codePoints (v :: rest)

def isSurrogate (p : Nat) : Bool := 0xD800 ≤ p && p ≤ 0xDFFF

/-- The Unicode scalar value a code point is encoded as. -/
def scalar (p : Nat) : Char := if isSurrogate p then '\uFFFD' else Char.ofNat p

/-- `text.toWellFormed()` -/
def toWellFormed (s : Units) : Text := (codePoints s).map scalar

/-- `Buffer.from(text, 'utf8')` -/
def toUtf8 (s : Units) : ByteArray := utf8 (toWellFormed s)

/-- `/[\uD800-\uDBFF](?![\uDC00-\uDFFF])|(?<![\uD800-\uDBFF])[\uDC00-\uDFFF]/`, past a high surrogate or not. -/
def hasLoneFrom : Bool → Units → Bool
  | _, [] => false
  | past, u :: rest =>
    (isHigh u && !rest.head?.any isLow) || (isLow u && !past) || hasLoneFrom (isHigh u) rest

def hasLone (s : Units) : Bool := hasLoneFrom false s

/-- `text.trim() === ''` -/
def isBlank (s : Units) : Bool := s.all fun u => isSpace (scalar u.toNat)

/-- The string with the code points of the text. -/
def ofText (t : Text) : Units := (codeUnits t).map UInt16.ofNat

/-! ## Code points -/

/-- The units of a code point. -/
def pointUnits (p : Nat) : List Nat :=
  if p < 0x10000 then [p] else [0xD800 + (p - 0x10000) / 0x400, 0xDC00 + (p - 0x10000) % 0x400]

theorem codePoints_pair {u v : UInt16} (h : (isHigh u && isLow v) = true) (rest : Units) :
    codePoints (u :: v :: rest) = (0x10000 + (u.toNat - 0xD800) * 0x400 + (v.toNat - 0xDC00)) :: codePoints rest := by
  rw [codePoints, if_pos h]

theorem codePoints_apart {u v : UInt16} (h : ¬ (isHigh u && isLow v) = true) (rest : Units) :
    codePoints (u :: v :: rest) = u.toNat :: codePoints (v :: rest) := by
  rw [codePoints, if_neg h]

theorem pointUnits_pair {u v : UInt16} (hu : isHigh u = true) (hv : isLow v = true) :
    pointUnits (0x10000 + (u.toNat - 0xD800) * 0x400 + (v.toNat - 0xDC00)) = [u.toNat, v.toNat] := by
  simp only [isHigh, isLow, Bool.and_eq_true, decide_eq_true_eq] at hu hv
  have hp : ¬ 0x10000 + (u.toNat - 0xD800) * 0x400 + (v.toNat - 0xDC00) < 0x10000 := by omega
  rw [pointUnits, if_neg hp, List.cons.injEq, List.cons.injEq]
  exact ⟨by omega, by omega, rfl⟩

/-- The units of a string are those of its code points. -/
theorem flatMap_codePoints (s : Units) : (codePoints s).flatMap pointUnits = s.map UInt16.toNat := by
  induction s using codePoints.induct with
  | case1 => rfl
  | case2 u => simp [codePoints, pointUnits, u.toNat_lt]
  | case3 u v rest h ih =>
    obtain ⟨hu, hv⟩ : isHigh u = true ∧ isLow v = true := by simpa using h
    rw [codePoints_pair h, List.flatMap_cons, pointUnits_pair hu hv, ih]
    rfl
  | case4 u v rest h ih =>
    have hu : pointUnits u.toNat = [u.toNat] := if_pos u.toNat_lt
    rw [codePoints_apart h, List.flatMap_cons, hu, ih]
    rfl

theorem toNat_injective : Function.Injective (List.map UInt16.toNat) :=
  List.map_injective_iff.2 fun _ _ => UInt16.toNat_inj.1

theorem codePoints_injective : Function.Injective codePoints := fun s t h => by
  apply toNat_injective
  rw [← flatMap_codePoints s, ← flatMap_codePoints t, h]

theorem codePoints_lt {s : Units} : ∀ p ∈ codePoints s, p < 0x110000 := by
  induction s using codePoints.induct with
  | case1 => simp [codePoints]
  | case2 u =>
    have := u.toNat_lt
    simp only [codePoints, List.mem_singleton, forall_eq]
    omega
  | case3 u v rest h ih =>
    have h' := h
    simp only [isHigh, isLow, Bool.and_eq_true, decide_eq_true_eq] at h'
    rw [codePoints_pair h, List.forall_mem_cons]
    exact ⟨by omega, ih⟩
  | case4 u v rest h ih =>
    have := u.toNat_lt
    rw [codePoints_apart h, List.forall_mem_cons]
    exact ⟨by omega, ih⟩

/-- No code point of a string is an unpaired surrogate, where the regular expression finds none. -/
theorem not_isSurrogate {s : Units} (hs : hasLone s = false) : ∀ p ∈ codePoints s, isSurrogate p = false := by
  unfold hasLone at hs
  induction s using codePoints.induct with
  | case1 => simp [codePoints]
  | case2 u =>
    simp only [hasLoneFrom, isHigh, isLow] at hs
    simp only [codePoints, List.mem_singleton, forall_eq, isSurrogate]
    simp at hs ⊢
    omega
  | case3 u v rest h ih =>
    obtain ⟨hu, hv⟩ : isHigh u = true ∧ isLow v = true := by simpa using h
    have hv' : isHigh v = false := by simp [isHigh, isLow] at hv ⊢; omega
    simp only [hasLoneFrom, Bool.or_eq_false_iff, hv'] at hs
    rw [codePoints_pair h, List.forall_mem_cons]
    refine ⟨?_, ih hs.2.2⟩
    simp [isHigh, isLow] at hu hv
    simp [isSurrogate]
    omega
  | case4 u v rest h ih =>
    rw [hasLoneFrom, Bool.or_eq_false_iff, Bool.or_eq_false_iff] at hs
    obtain ⟨⟨hhigh, hlow⟩, hrest⟩ := hs
    have hu : isHigh u = false := by
      cases hu : isHigh u with
      | false => rfl
      | true => simp_all
    have hl : isLow u = false := by simpa using hlow
    rw [hu] at hrest
    rw [codePoints_apart h, List.forall_mem_cons]
    refine ⟨?_, ih hrest⟩
    simp [isHigh, isLow] at hu hl
    simp [isSurrogate]
    omega

theorem hasLone_of_forall {s : Units} (h : ∀ u ∈ s, isSurrogate u.toNat = false) : hasLone s = false := by
  have key : ∀ past, hasLoneFrom past s = false := by
    induction s with
    | nil => exact fun _ => rfl
    | cons u rest ih =>
      intro past
      have hu : isSurrogate u.toNat = false := h u (by simp)
      have hhigh : isHigh u = false := by simp [isSurrogate, isHigh] at hu ⊢; omega
      have hlow : isLow u = false := by simp [isSurrogate, isLow] at hu ⊢; omega
      rw [hasLoneFrom, hhigh, hlow, ih fun v hv => h v (by simp [hv])]
      rfl
  exact key false

theorem toNat_scalar {p : Nat} (hp : p < 0x110000) (hs : isSurrogate p = false) : (scalar p).toNat = p := by
  have hvalid : p.isValidChar := by
    simp [isSurrogate] at hs
    rw [Nat.isValidChar]
    omega
  rw [scalar, if_neg (by simp [hs]), Char.ofNat, dif_pos hvalid]
  rfl

/-- Two strings with no unpaired surrogate are told apart by what they are converted to. -/
theorem toWellFormed_inj {s t : Units} (hs : hasLone s = false) (ht : hasLone t = false)
    (h : toWellFormed s = toWellFormed t) : s = t := by
  have key : ∀ {r : Units}, hasLone r = false → (toWellFormed r).map Char.toNat = codePoints r := fun {r} hr => by
    rw [toWellFormed, List.map_map]
    conv_rhs => rw [← List.map_id (codePoints r)]
    exact List.map_congr_left fun p hp => toNat_scalar (codePoints_lt p hp) (not_isSurrogate hr p hp)
  apply codePoints_injective
  rw [← key hs, ← key ht, h]

/-- A unit that is no surrogate stands apart from what is on either side of it. -/
theorem codePoints_append_cons {s : Units} {u : UInt16} (hu : isSurrogate u.toNat = false) (t : Units) :
    codePoints (s ++ u :: t) = codePoints s ++ u.toNat :: codePoints t := by
  have hhigh : isHigh u = false := by simp [isSurrogate, isHigh] at hu ⊢; omega
  have hlow : isLow u = false := by simp [isSurrogate, isLow] at hu ⊢; omega
  have hstart : ∀ t : Units, codePoints (u :: t) = u.toNat :: codePoints t := fun t => by
    cases t with
    | nil => rfl
    | cons v rest => exact codePoints_apart (by simp [hhigh]) rest
  induction s using codePoints.induct with
  | case1 => exact hstart t
  | case2 v =>
    rw [List.cons_append, List.nil_append, codePoints_apart (by simp [hlow]), hstart]
    rfl
  | case3 v w rest h ih =>
    rw [List.cons_append, List.cons_append, codePoints_pair h, ih, codePoints_pair h, List.cons_append]
  | case4 v w rest h ih =>
    rw [List.cons_append] at ih
    rw [List.cons_append, List.cons_append, codePoints_apart h, ih, codePoints_apart h, List.cons_append]

theorem toWellFormed_append_cons {s : Units} {u : UInt16} (hu : isSurrogate u.toNat = false) (t : Units) :
    toWellFormed (s ++ u :: t) = toWellFormed s ++ scalar u.toNat :: toWellFormed t := by
  rw [toWellFormed, codePoints_append_cons hu, List.map_append]
  rfl

theorem isSurrogate_toNat (c : Char) : isSurrogate c.toNat = false := by
  have hc : c.toNat < 0xD800 ∨ 0xDFFF < c.toNat ∧ c.toNat < 0x110000 := c.valid
  simp [isSurrogate]
  omega

theorem scalar_toNat (c : Char) : scalar c.toNat = c := by
  rw [scalar, if_neg (by simp [isSurrogate_toNat]), Char.ofNat_toNat]

theorem codePoints_units_append (c : Char) (s : Units) :
    codePoints ((units c).map UInt16.ofNat ++ s) = c.toNat :: codePoints s := by
  have hc : c.toNat < 0xD800 ∨ 0xDFFF < c.toNat ∧ c.toNat < 0x110000 := c.valid
  unfold units
  by_cases hb : c.toNat < 0x10000
  · have hu : (UInt16.ofNat c.toNat).toNat = c.toNat := UInt16.toNat_ofNat_of_lt' hb
    rw [if_pos hb]
    have := codePoints_append_cons (s := []) (u := UInt16.ofNat c.toNat) (by rw [hu]; exact isSurrogate_toNat c) s
    rwa [hu] at this
  · have hh : (UInt16.ofNat (0xD800 + (c.toNat - 0x10000) / 0x400)).toNat = 0xD800 + (c.toNat - 0x10000) / 0x400 :=
      UInt16.toNat_ofNat_of_lt' (by simp [UInt16.size]; omega)
    have hl : (UInt16.ofNat (0xDC00 + (c.toNat - 0x10000) % 0x400)).toNat = 0xDC00 + (c.toNat - 0x10000) % 0x400 :=
      UInt16.toNat_ofNat_of_lt' (by simp [UInt16.size]; omega)
    have hpair : (isHigh (UInt16.ofNat (0xD800 + (c.toNat - 0x10000) / 0x400)) &&
        isLow (UInt16.ofNat (0xDC00 + (c.toNat - 0x10000) % 0x400))) = true := by
      rw [isHigh, isLow, hh, hl]
      simp
      omega
    have hpoint : 0x10000 + (0xD800 + (c.toNat - 0x10000) / 0x400 - 0xD800) * 0x400 +
        (0xDC00 + (c.toNat - 0x10000) % 0x400 - 0xDC00) = c.toNat := by omega
    rw [if_neg hb, List.map_cons, List.map_cons, List.map_nil, List.cons_append, List.cons_append, List.nil_append,
      codePoints_pair hpair, hh, hl, hpoint]

theorem toWellFormed_ofText_append (t : Text) (s : Units) : toWellFormed (ofText t ++ s) = t ++ toWellFormed s := by
  induction t with
  | nil => rfl
  | cons c cs ih =>
    have h : ofText (c :: cs) ++ s = (units c).map UInt16.ofNat ++ (ofText cs ++ s) := by
      simp [ofText, codeUnits, List.flatMap_cons]
    rw [h, toWellFormed, codePoints_units_append, List.map_cons, scalar_toNat, ← toWellFormed, ih, List.cons_append]

@[simp] theorem toWellFormed_ofText (t : Text) : toWellFormed (ofText t) = t := by
  have h := toWellFormed_ofText_append t []
  rwa [List.append_nil, show toWellFormed [] = [] from rfl, List.append_nil] at h

theorem ofText_injective : Function.Injective ofText := fun s t h => by
  rw [← toWellFormed_ofText s, ← toWellFormed_ofText t, h]

/-! ## A value behind its length -/

/-- `Buffer.byteLength(text, 'utf8')` -/
def byteLength (s : Units) : Nat := (toUtf8 s).size

theorem size_utf8_append (a b : Text) : (utf8 (a ++ b)).size = (utf8 a).size + (utf8 b).size := by
  simp [utf8]

theorem size_utf8_eq_zero {t : Text} (h : (utf8 t).size = 0) : t = [] := by
  cases t with
  | nil => rfl
  | cons c cs =>
    have hc : (utf8 (c :: cs)).size = (utf8 [c]).size + (utf8 cs).size := size_utf8_append [c] cs
    have hpos : 0 < (utf8 [c]).size := by simp [utf8, List.utf8Encode_singleton, Char.utf8Size_pos]
    omega

/-- Values of one length are told off the front of any text. -/
theorem append_inj_of_size {a b r s : Text} (hsize : (utf8 a).size = (utf8 b).size) (h : a ++ r = b ++ s) :
    a = b ∧ r = s := by
  obtain ⟨c, rfl, rfl⟩ | ⟨c, rfl, rfl⟩ := List.append_eq_append_iff.1 h
  · have hc : c = [] := by
      apply size_utf8_eq_zero
      rw [size_utf8_append] at hsize
      omega
    simp [hc]
  · have hc : c = [] := by
      apply size_utf8_eq_zero
      rw [size_utf8_append] at hsize
      omega
    simp [hc]

/-- A value written behind its length can be read back, whatever follows it. -/
theorem sized_inj {a b r s : Text}
    (h : decimal (utf8 a).size ++ ':' :: (a ++ r) = decimal (utf8 b).size ++ ':' :: (b ++ s)) : a = b ∧ r = s := by
  have hcolon : ∀ t : Text, NoDigitNext (':' :: t) := fun t c hc => by
    obtain rfl : ':' = c := by simpa using hc
    rfl
  obtain ⟨hsize, hrest⟩ := decimal_append_inj (hcolon _) (hcolon _) h
  exact append_inj_of_size hsize (List.cons.inj hrest).2

/-! ## `JSON.stringify` -/

/-- A code point as it is written in a string literal. -/
def quotePoint (p : Nat) : Text :=
  if p = 8 then ['\\', 'b']
  else if p = 9 then ['\\', 't']
  else if p = 10 then ['\\', 'n']
  else if p = 12 then ['\\', 'f']
  else if p = 13 then ['\\', 'r']
  else if p = 34 then ['\\', '"']
  else if p = 92 then ['\\', '\\']
  else if p < 32 || isSurrogate p then
    ['\\', 'u', Nat.digitChar (p / 4096), Nat.digitChar (p / 256 % 16), Nat.digitChar (p / 16 % 16),
      Nat.digitChar (p % 16)]
  else [Char.ofNat p]

/-- `JSON.stringify(text)` -/
def quote (s : Units) : Text := '"' :: ((codePoints s).flatMap quotePoint ++ ['"'])

/-- `JSON.stringify(texts)` -/
def stringify (texts : List Units) : Text := '[' :: ([','].intercalate (texts.map quote) ++ [']'])

/-- `JSON.parse` reads a code point back as its units. -/
theorem stringRest_quotePoint {p : Nat} (hp : p < 0x110000) {t : Text} {more : List Nat} {rest : Text}
    (h : Written.stringRest t = some (more, rest)) :
    Written.stringRest (quotePoint p ++ t) = some (pointUnits p ++ more, rest) := by
  unfold quotePoint
  split_ifs with h8 h9 h10 h12 h13 h34 h92 hu
  iterate 7 subst p; simp [Written.stringRest, Written.escapeOf, pointUnits, h]
  · have hlt : p < 0x10000 := by simp [isSurrogate] at hu; omega
    have h4 : p / 4096 < 16 := by omega
    have hvalue : ((p / 4096 * 16 + p / 256 % 16) * 16 + p / 16 % 16) * 16 + p % 16 = p := by omega
    have hunits : pointUnits p = [p] := if_pos hlt
    rw [List.cons_append, List.cons_append, List.cons_append, List.cons_append, List.cons_append, List.cons_append,
      List.nil_append, Written.stringRest, Written.hexDigit?_digitChar h4,
      Written.hexDigit?_digitChar (Nat.mod_lt _ (by decide)), Written.hexDigit?_digitChar (Nat.mod_lt _ (by decide)),
      Written.hexDigit?_digitChar (Nat.mod_lt _ (by decide)), h, hunits]
    simp [hvalue]
  · obtain ⟨h32, hs⟩ : ¬ p < 32 ∧ isSurrogate p = false := by simpa using hu
    have hnat : (Char.ofNat p).toNat = p := by
      have := toNat_scalar hp hs
      rwa [scalar, if_neg (by simp [hs])] at this
    have hquote : Char.ofNat p ≠ '"' := fun hc => h34 (by rw [← hnat, hc]; rfl)
    have hslash : Char.ofNat p ≠ '\\' := fun hc => h92 (by rw [← hnat, hc]; rfl)
    have hunits : units (Char.ofNat p) = pointUnits p := by rw [units, hnat, pointUnits]
    rw [List.cons_append, List.nil_append, Written.stringRest, if_neg (by simp [hnat, hslash]; omega), h]
    · simp [hunits]
    · exact hquote
    · exact fun _ _ _ _ _ hc => absurd hc hslash
    · exact fun _ _ hc => absurd hc hslash

/-- `JSON.parse` reads a string literal back, whatever follows it. -/
theorem stringRest_quote (s : Units) (rest : Text) :
    Written.stringRest ((quote s).tail ++ rest) = some (s.map UInt16.toNat, rest) := by
  have key : ∀ ps : List Nat, (∀ p ∈ ps, p < 0x110000) →
      Written.stringRest (ps.flatMap quotePoint ++ '"' :: rest) = some (ps.flatMap pointUnits, rest) := by
    intro ps hps
    induction ps with
    | nil => simp [Written.stringRest]
    | cons p ps ih =>
      rw [List.flatMap_cons, List.append_assoc, List.flatMap_cons]
      exact stringRest_quotePoint (hps p (by simp)) (ih fun q hq => hps q (by simp [hq]))
  rw [← flatMap_codePoints s, ← key (codePoints s) codePoints_lt, quote, List.tail_cons, List.append_assoc,
    List.singleton_append]

theorem quote_append_inj {s t : Units} {x y : Text} (h : quote s ++ x = quote t ++ y) : s = t ∧ x = y := by
  have htail : (quote s).tail ++ x = (quote t).tail ++ y := (List.cons.inj h).2
  have hread := stringRest_quote s x
  rw [htail, stringRest_quote t y, Option.some.injEq, Prod.mk.injEq] at hread
  exact ⟨(toNat_injective hread.1).symm, hread.2.symm⟩

theorem intercalate_quote_cons (s : Units) (texts : List Units) :
    [','].intercalate ((s :: texts).map quote) ++ [']'] =
      quote s ++ if texts = [] then [']'] else ',' :: ([','].intercalate (texts.map quote) ++ [']']) := by
  cases texts with
  | nil => simp
  | cons t texts => simp [List.intercalate_cons_cons]

/-- The JSON text of a list of strings, unpaired surrogates and all, is that of no other list. -/
theorem stringify_injective : Function.Injective stringify := by
  have key : ∀ xs ys : List Units,
      [','].intercalate (xs.map quote) ++ [']'] = [','].intercalate (ys.map quote) ++ [']'] → xs = ys := by
    intro xs
    induction xs with
    | nil =>
      intro ys h
      cases ys with
      | nil => rfl
      | cons y ys =>
        rw [intercalate_quote_cons] at h
        simp [quote] at h
    | cons x xs ih =>
      intro ys h
      cases ys with
      | nil =>
        rw [intercalate_quote_cons] at h
        simp [quote] at h
      | cons y ys =>
        rw [intercalate_quote_cons, intercalate_quote_cons] at h
        obtain ⟨rfl, hrest⟩ := quote_append_inj h
        split_ifs at hrest with hx hy hy
        · rw [hx, hy]
        · simp at hrest
        · simp at hrest
        · rw [ih ys (List.cons.inj hrest).2]
  exact fun xs ys h => key xs ys (List.cons.inj h).2

end Units

end Js
