import Mathlib

/-!
# JavaScript strings

A string is the list of its code points. Every operation here is the one ECMAScript documents: the
`\s` class, `trim`, a whitespace collapse, `toLowerCase` with its one context-sensitive rule (the
final sigma), the UTF-16 length and the UTF-16 order `<` compares by. Unpaired surrogates are the
only strings left out.

The Unicode case tables are a parameter (`CaseTables`): an engine takes them from whatever Unicode
version it ships, so nothing may rest on one of them.
-/

namespace Js

abbrev Text := List Char

instance : Coe String Text := ⟨String.toList⟩

instance : LawfulBEq Text := inferInstance

/-! ## White space -/

/-- ECMAScript `WhiteSpace` and `LineTerminator`, which is both `\s` and what `trim` removes. -/
def isSpace (c : Char) : Bool :=
  (9 ≤ c.toNat && c.toNat ≤ 13) || c.toNat == 0x20 || c.toNat == 0xA0 || c.toNat == 0x1680 ||
    (0x2000 ≤ c.toNat && c.toNat ≤ 0x200A) || c.toNat == 0x2028 || c.toNat == 0x2029 ||
    c.toNat == 0x202F || c.toNat == 0x205F || c.toNat == 0x3000 || c.toNat == 0xFEFF

/-- `text.trim()`. -/
def trim (t : Text) : Text := (t.dropWhile isSpace).rdropWhile isSpace

/-- `text.replace(/\s+/g, ' ')`, `inRun` when the run of white space at hand is already written. -/
def collapseFrom : Bool → Text → Text
  | _, [] => []
  | inRun, c :: cs =>
    if isSpace c then (if inRun then collapseFrom true cs else ' ' :: collapseFrom true cs)
    else c :: collapseFrom false cs

def collapse (t : Text) : Text := collapseFrom false t

/-- The text is its own trimming: it neither starts nor ends with white space. -/
def Trimmed (t : Text) : Prop := trim t = t

theorem trim_eq_self {t : Text} (hh : ∀ h : t ≠ [], isSpace (t.head h) = false)
    (hl : ∀ h : t ≠ [], isSpace (t.getLast h) = false) : trim t = t := by
  unfold trim
  have hd : t.dropWhile isSpace = t := by
    cases t with
    | nil => rfl
    | cons c cs => rw [List.dropWhile_cons_of_neg]; simpa using hh (by simp)
  rw [hd, List.rdropWhile_eq_self_iff]
  intro h
  simp [hl h]

theorem trimmed_of_isSpace {t : Text} (h : ∀ c ∈ t, isSpace c = false) : Trimmed t :=
  trim_eq_self (fun hne => h _ (List.head_mem hne)) (fun hne => h _ (List.getLast_mem hne))

theorem head_trim {t : Text} (h : trim t ≠ []) : isSpace ((trim t).head h) = false := by
  have hpre : trim t <+: t.dropWhile isSpace := List.rdropWhile_prefix _ _
  have hne : t.dropWhile isSpace ≠ [] := fun h0 => h (by simpa [h0] using hpre)
  obtain ⟨r, hr⟩ := hpre
  have : (t.dropWhile isSpace).head hne = (trim t).head h := by
    simp only [← hr, List.head_append_of_ne_nil h]
  rw [← this]
  simpa using List.head_dropWhile_not isSpace hne

theorem getLast_trim {t : Text} (h : trim t ≠ []) : isSpace ((trim t).getLast h) = false := by
  have := List.rdropWhile_last_not isSpace (t.dropWhile isSpace) h
  exact Bool.eq_false_iff.2 this

theorem head_of_trimmed {t : Text} (ht : Trimmed t) (h : t ≠ []) : isSpace (t.head h) = false := by
  have := head_trim (t := t) (by rwa [show trim t = t from ht])
  simpa only [show trim t = t from ht] using this

theorem getLast_of_trimmed {t : Text} (ht : Trimmed t) (h : t ≠ []) :
    isSpace (t.getLast h) = false := by
  have := getLast_trim (t := t) (by rwa [show trim t = t from ht])
  simpa only [show trim t = t from ht] using this

/-- Trimming takes away white space only. -/
theorem mem_trim {t : Text} {c : Char} (hc : c ∈ t) (hs : isSpace c = false) : c ∈ trim t := by
  have hdrop : ∀ {l : Text}, c ∈ l → c ∈ l.dropWhile isSpace := by
    intro l hl
    rw [← List.takeWhile_append_dropWhile (p := isSpace) (l := l), List.mem_append] at hl
    rcases hl with hl | hl
    · rw [List.mem_takeWhile_imp hl] at hs
      cases hs
    · exact hl
  rw [trim, List.rdropWhile, List.mem_reverse]
  exact hdrop (List.mem_reverse.2 (hdrop hc))

theorem trim_trim (t : Text) : trim (trim t) = trim t := trim_eq_self head_trim getLast_trim

/-- What white space has not is found in a text as it is in the trimmed one. -/
theorem filter_trim (t : Text) {p : Char → Bool} (hp : ∀ c, isSpace c = true → p c = false) :
    (trim t).filter p = t.filter p := by
  have hdrop : ∀ u : Text, (u.dropWhile isSpace).filter p = u.filter p := fun u => by
    have hspaces : (u.takeWhile isSpace).filter p = [] :=
      List.filter_eq_nil_iff.2 fun c hc => by simp [hp c (List.mem_takeWhile_imp hc)]
    calc (u.dropWhile isSpace).filter p = (u.takeWhile isSpace ++ u.dropWhile isSpace).filter p := by
          rw [List.filter_append, hspaces, List.nil_append]
      _ = u.filter p := by rw [List.takeWhile_append_dropWhile]
  rw [trim, List.rdropWhile, List.filter_reverse, hdrop, List.filter_reverse, List.reverse_reverse, hdrop]

/-- Two trimmed texts joined by a character that is no white space are trimmed. -/
theorem trim_join {a b : Text} {c : Char} (ha : Trimmed a) (hb : Trimmed b) (hc : isSpace c = false) :
    trim (a ++ c :: b) = a ++ c :: b := by
  refine trim_eq_self (fun h => ?_) (fun h => ?_)
  · cases a with
    | nil => simpa using hc
    | cons x xs => simpa using head_of_trimmed ha (by simp)
  · cases b with
    | nil => simpa using hc
    | cons x xs => simpa using getLast_of_trimmed hb (by simp)

@[simp] theorem collapseFrom_nil (r : Bool) : collapseFrom r [] = [] := rfl

/-- Past a character that is no white space the run so far no longer matters. -/
theorem collapseFrom_append (r : Bool) (a b : Text) {c : Char} (hc : isSpace c = false) :
    collapseFrom r (a ++ c :: b) = collapseFrom r a ++ c :: collapseFrom false b := by
  induction a generalizing r with
  | nil => simp [collapseFrom, hc]
  | cons x xs ih =>
    simp only [List.cons_append, collapseFrom]
    split
    · split <;> simp [ih]
    · simp [ih]

theorem collapse_append (a b : Text) {c : Char} (hc : isSpace c = false) :
    collapse (a ++ c :: b) = collapse a ++ c :: collapse b := collapseFrom_append false a b hc

theorem collapse_eq_self {t : Text} (h : ∀ c ∈ t, isSpace c = false) : collapse t = t := by
  unfold collapse
  induction t with
  | nil => rfl
  | cons c cs ih =>
    have hc : isSpace c = false := h c (by simp)
    simp only [collapseFrom, hc, Bool.false_eq_true, ↓reduceIte]
    rw [ih (fun d hd => h d (by simp [hd]))]

/-! ## Case -/

/-- The Unicode data `toLowerCase` and `toUpperCase` read: the full case mappings, and the two
properties the final-sigma rule asks of a character's neighbours. -/
structure CaseTables where
  lower : Char → Text
  upper : Char → Text
  cased : Char → Bool
  caseIgnorable : Char → Bool

namespace CaseTables

variable (T : CaseTables)

/-- `Final_Sigma`: a cased character before (past case-ignorable ones) and none after. `before` is
the text to the left, nearest character first. -/
def finalSigma (before after : Text) : Bool :=
  (match before.dropWhile T.caseIgnorable with
    | c :: _ => T.cased c
    | [] => false) &&
  !(match after.dropWhile T.caseIgnorable with
    | c :: _ => T.cased c
    | [] => false)

/-- The lower case of one character between its neighbours. -/
def lowerAt (before : Text) (c : Char) (after : Text) : Text :=
  if c = 'Σ' then (if T.finalSigma before after then ['ς'] else ['σ']) else T.lower c

/-- The lower case of `t` where `before` stands to its left and `after` to its right. -/
def lowerWithin (before : Text) : Text → Text → Text
  | [], _ => []
  | c :: cs, after => T.lowerAt before c (cs ++ after) ++ lowerWithin (c :: before) cs after

/-- `text.toLowerCase()`. -/
def toLowerCase (t : Text) : Text := T.lowerWithin [] t []

/-- `text.toUpperCase()`: no mapping to upper case looks at its neighbours. -/
def toUpperCase (t : Text) : Text := t.flatMap T.upper

/-- Lower-casing a text is lower-casing its two parts, each in sight of the other. -/
theorem lowerWithin_append (before a b after : Text) :
    T.lowerWithin before (a ++ b) after =
      T.lowerWithin before a (b ++ after) ++ T.lowerWithin (a.reverse ++ before) b after := by
  induction a generalizing before with
  | nil => simp [lowerWithin]
  | cons c cs ih => simp [lowerWithin, ih, List.append_assoc]

theorem lowerWithin_singleton (before after : Text) {c : Char} (h : c ≠ 'Σ') :
    T.lowerWithin before [c] after = T.lower c := by simp [lowerWithin, lowerAt, h]

/-- Characters the tables map to themselves stay, whatever stands around them. -/
theorem lowerWithin_eq_self {t : Text} (h : ∀ c ∈ t, c ≠ 'Σ' ∧ T.lower c = [c]) :
    ∀ before after, T.lowerWithin before t after = t := by
  induction t with
  | nil => intro _ _; rfl
  | cons c cs ih =>
    intro before after
    obtain ⟨hne, hc⟩ := h c (by simp)
    simp [lowerWithin, lowerAt, hne, hc, ih (fun d hd => h d (by simp [hd]))]

/-- How long the lower case of a text is does not depend on what stands around it. -/
theorem lowerWithin_length_congr : ∀ (t before before' after after' : Text),
    (T.lowerWithin before t after).length = (T.lowerWithin before' t after').length
  | [], _, _, _, _ => rfl
  | c :: cs, before, before', after, after' => by
    have hc : ∀ b a, (T.lowerAt b c a).length = (if c = 'Σ' then ['σ'] else T.lower c).length := by
      intro b a
      unfold lowerAt
      split
      · split <;> rfl
      · rfl
    rw [lowerWithin, lowerWithin, List.length_append, List.length_append, hc, hc,
      lowerWithin_length_congr cs]

end CaseTables

/-- The tables on ASCII text, where the mappings are `A`–`Z` to `a`–`z` and back. -/
def asciiCase : CaseTables where
  lower c := [c.toLower]
  upper c := [c.toUpper]
  cased c := c.isAlpha
  caseIgnorable c := ['\'', '.', ':', '^', '`'].contains c

/-! ## UTF-16 -/

/-- The UTF-16 code units of one code point. -/
def units (c : Char) : List Nat :=
  if c.toNat < 0x10000 then [c.toNat]
  else [0xD800 + (c.toNat - 0x10000) / 0x400, 0xDC00 + (c.toNat - 0x10000) % 0x400]

def codeUnits (t : Text) : List Nat := t.flatMap units

/-- `text.length`. -/
def utf16Length (t : Text) : Nat := (codeUnits t).length

/-- `text.slice(0, n)`; a code point whose units the cut divides is left out. -/
def sliceTo : Nat → Text → Text
  | _, [] => []
  | n, c :: cs => if (units c).length ≤ n then c :: sliceTo (n - (units c).length) cs else []

theorem sliceTo_eq_self : ∀ {n : Nat} {t : Text}, utf16Length t ≤ n → sliceTo n t = t
  | _, [], _ => rfl
  | n, c :: cs, h => by
    have hlen : utf16Length (c :: cs) = (units c).length + utf16Length cs := by
      simp [utf16Length, codeUnits, List.flatMap_cons]
    rw [sliceTo, if_pos (by omega), sliceTo_eq_self (by omega)]

theorem isSpace_of_isDigit {c : Char} (h : c.isDigit = true) : isSpace c = false := by
  have h' : 48 ≤ c.toNat ∧ c.toNat ≤ 57 := by simpa [Char.isDigit, UInt32.le_iff_toNat_le] using h
  unfold isSpace
  simp
  omega

/-- A code point's units can be told off the front of any list of units. -/
theorem units_append_inj {c d : Char} {x y : List Nat} (h : units c ++ x = units d ++ y) :
    c = d ∧ x = y := by
  have hc : c.toNat < 0xD800 ∨ 0xDFFF < c.toNat ∧ c.toNat < 0x110000 := c.valid
  have hd : d.toNat < 0xD800 ∨ 0xDFFF < d.toNat ∧ d.toNat < 0x110000 := d.valid
  have key : c.toNat = d.toNat → c = d := fun e => Char.toNat_inj.1 e
  unfold units at h
  by_cases h1 : c.toNat < 0x10000 <;> by_cases h2 : d.toNat < 0x10000 <;> simp [h1, h2] at h
  · exact ⟨key h.1, h.2⟩
  · omega
  · omega
  · exact ⟨key (by omega), h.2.2⟩

theorem codeUnits_injective : Function.Injective codeUnits := by
  intro s
  induction s with
  | nil =>
    intro t h
    cases t with
    | nil => rfl
    | cons d ds => simp [codeUnits, units] at h; split at h <;> simp at h
  | cons c cs ih =>
    intro t h
    cases t with
    | nil => simp [codeUnits, units] at h; split at h <;> simp at h
    | cons d ds =>
      simp only [codeUnits, List.flatMap_cons] at h
      obtain ⟨rfl, hrest⟩ := units_append_inj h
      rw [ih hrest]

/-- `a < b` on strings: lexicographic by code unit. -/
def textLt (a b : Text) : Prop := codeUnits a < codeUnits b

/-- `a <= b` on strings. -/
def textLe (a b : Text) : Prop := codeUnits a ≤ codeUnits b

instance : DecidableRel textLt := fun a b => inferInstanceAs (Decidable (codeUnits a < codeUnits b))
instance : DecidableRel textLe := fun a b => inferInstanceAs (Decidable (codeUnits a ≤ codeUnits b))

theorem textLt_irrefl (a : Text) : ¬ textLt a a := lt_irrefl (codeUnits a)

theorem textLt_trans {a b c : Text} (h : textLt a b) (h' : textLt b c) : textLt a c :=
  lt_trans (α := List Nat) h h'

theorem textLt_trichotomy (a b : Text) : textLt a b ∨ a = b ∨ textLt b a := by
  rcases lt_trichotomy (codeUnits a) (codeUnits b) with h | h | h
  · exact .inl h
  · exact .inr (.inl (codeUnits_injective h))
  · exact .inr (.inr h)

theorem textLe_iff {a b : Text} : textLe a b ↔ textLt a b ∨ a = b := by
  unfold textLe textLt
  rw [le_iff_lt_or_eq, codeUnits_injective.eq_iff]

/-- The code units of the text in UTF-8, as `new TextEncoder().encode` writes them. -/
def utf8 (t : Text) : ByteArray := (String.ofList t).toByteArray

theorem utf8_injective : Function.Injective utf8 := fun a b h => by
  have := String.toByteArray_inj.1 h
  simpa using congrArg String.toList this

end Js
