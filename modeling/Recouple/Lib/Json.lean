import Recouple.Lib.Number

/-!
# `JSON.stringify(value, null, 2)`

The values a JSON document of strings, integers, arrays and objects is made of, and the text
ECMAScript writes for one with an indent of two. `render_append_inj` is what a reader of the text
can rely on: a value can be told off the front of any text, so two values with one text are equal
(`stringify_injective`).
-/

namespace Js

/-! ## String literals -/

/-- `QuoteJSONString`, one code point. -/
def escape (c : Char) : Text :=
  if c = '"' then ['\\', '"']
  else if c = '\\' then ['\\', '\\']
  else if c.toNat = 8 then ['\\', 'b']
  else if c.toNat = 9 then ['\\', 't']
  else if c.toNat = 10 then ['\\', 'n']
  else if c.toNat = 12 then ['\\', 'f']
  else if c.toNat = 13 then ['\\', 'r']
  else if c.toNat < 32 then ['\\', 'u', '0', '0', Nat.digitChar (c.toNat / 16), Nat.digitChar (c.toNat % 16)]
  else [c]

/-- `JSON.stringify(text)`. -/
def quote (t : Text) : Text := '"' :: t.flatMap escape ++ ['"']

def hexValue (c : Char) : Nat := if c.toNat < 58 then c.toNat - 48 else c.toNat - 87

/-- Reads one code point of a string literal back. -/
def unescape : Text → Option (Char × Text)
  | '\\' :: 'u' :: _ :: _ :: h :: l :: r => some (Char.ofNat (16 * hexValue h + hexValue l), r)
  | '\\' :: 'b' :: r => some (Char.ofNat 8, r)
  | '\\' :: 't' :: r => some (Char.ofNat 9, r)
  | '\\' :: 'n' :: r => some (Char.ofNat 10, r)
  | '\\' :: 'f' :: r => some (Char.ofNat 12, r)
  | '\\' :: 'r' :: r => some (Char.ofNat 13, r)
  | '\\' :: c :: r => some (c, r)
  | '"' :: _ => none
  | c :: r => some (c, r)
  | [] => none

theorem hexValue_digitChar : ∀ n < 16, hexValue (Nat.digitChar n) = n := by decide

theorem ofNat_of_toNat {c : Char} {n : Nat} (h : c.toNat = n) : Char.ofNat n = c := by
  rw [← h, Char.ofNat_toNat]

theorem unescape_escape (c : Char) (r : Text) : unescape (escape c ++ r) = some (c, r) := by
  unfold escape
  split_ifs with h1 h2 h3 h4 h5 h6 h7 h8
  · subst h1; rfl
  · subst h2; rfl
  · rw [← ofNat_of_toNat h3]; rfl
  · rw [← ofNat_of_toNat h4]; rfl
  · rw [← ofNat_of_toNat h5]; rfl
  · rw [← ofNat_of_toNat h6]; rfl
  · rw [← ofNat_of_toNat h7]; rfl
  · have hc : 16 * (c.toNat / 16) + c.toNat % 16 = c.toNat := by omega
    simp only [List.cons_append, List.nil_append, unescape]
    rw [hexValue_digitChar _ (by omega), hexValue_digitChar _ (by omega), hc, Char.ofNat_toNat]
  · simp only [List.cons_append, List.nil_append]
    unfold unescape
    split <;> simp_all

/-- A string literal ends at its closing quote. -/
theorem flatMap_escape_inj : ∀ {s t r r' : Text},
    s.flatMap escape ++ '"' :: r = t.flatMap escape ++ '"' :: r' → s = t ∧ r = r'
  | [], [], _, _, h => ⟨rfl, by simpa using h⟩
  | [], c :: cs, r, r', h => by
    have := congrArg unescape h
    rw [List.flatMap_cons, List.append_assoc, unescape_escape] at this
    exact absurd this (by simp [unescape])
  | c :: cs, [], r, r', h => by
    have := congrArg unescape h
    rw [List.flatMap_cons, List.append_assoc, unescape_escape] at this
    exact absurd this (by simp [unescape])
  | c :: cs, d :: ds, r, r', h => by
    have := congrArg unescape h
    simp only [List.flatMap_cons, List.append_assoc, unescape_escape, Option.some.injEq,
      Prod.mk.injEq] at this
    obtain ⟨rfl, hrest⟩ := this
    obtain ⟨rfl, rfl⟩ := flatMap_escape_inj hrest
    exact ⟨rfl, rfl⟩

theorem quote_append_inj {s t r r' : Text} (h : quote s ++ r = quote t ++ r') : s = t ∧ r = r' := by
  simp only [quote, List.cons_append, List.append_assoc, List.nil_append, List.cons.injEq,
    true_and] at h
  exact flatMap_escape_inj h

/-! ## Values -/

inductive Json
  | null
  | num (n : Int)
  | str (t : Text)
  | arr (items : List Json)
  | obj (fields : List (Text × Json))

/-- A new line at depth `d`. -/
def lineStart (d : Nat) : Text := '\n' :: List.replicate (2 * d) ' '

mutual
/-- The text of a value that stands at depth `d`. -/
def render (d : Nat) : Json → Text
  | .null => ['n', 'u', 'l', 'l']
  | .num n => decimalInt n
  | .str t => quote t
  | .arr [] => ['[', ']']
  | .arr (v :: vs) =>
    '[' :: lineStart (d + 1) ++ render (d + 1) v ++ renderItems (d + 1) vs ++ lineStart d ++ [']']
  | .obj [] => ['{', '}']
  | .obj ((k, v) :: fs) =>
    '{' :: lineStart (d + 1) ++ quote k ++ ':' :: ' ' :: render (d + 1) v ++
      renderFields (d + 1) fs ++ lineStart d ++ ['}']
/-- The items after the first. -/
def renderItems (d : Nat) : List Json → Text
  | [] => []
  | v :: vs => ',' :: lineStart d ++ render d v ++ renderItems d vs
/-- The fields after the first. -/
def renderFields (d : Nat) : List (Text × Json) → Text
  | [] => []
  | (k, v) :: fs => ',' :: lineStart d ++ quote k ++ ':' :: ' ' :: render d v ++ renderFields d fs
end

/-- `JSON.stringify(value, null, 2)`. -/
def stringify (v : Json) : Text := render 0 v

/-! ## A value can be told off the front of a text -/

/-- Which kind of value a text with this first character is. -/
def kindOf (c : Char) : Nat :=
  if c = 'n' then 0 else if c = '"' then 2 else if c = '[' then 3 else if c = '{' then 4 else 1

def kind : Json → Nat
  | .null => 0
  | .num _ => 1
  | .str _ => 2
  | .arr _ => 3
  | .obj _ => 4

theorem kindOf_digit {c : Char} (h : c.isDigit = true ∨ c = '-') : kindOf c = 1 := by
  rcases h with h | rfl
  · unfold kindOf
    split_ifs with h1 h2 h3 h4
    · subst h1; exact absurd h (by decide)
    · subst h2; exact absurd h (by decide)
    · subst h3; exact absurd h (by decide)
    · subst h4; exact absurd h (by decide)
    · rfl
  · decide

theorem render_head (d : Nat) : ∀ v : Json, ∃ c cs, render d v = c :: cs ∧ kindOf c = kind v
  | .null => ⟨'n', _, by rw [render], rfl⟩
  | .num n => by
    obtain ⟨c, cs, h, hc⟩ := decimalInt_head n
    exact ⟨c, cs, by rw [render, h], kindOf_digit hc⟩
  | .str t => ⟨'"', _, by rw [render, quote]; rfl, rfl⟩
  | .arr [] => ⟨'[', _, by rw [render], rfl⟩
  | .arr (v :: vs) => ⟨'[', _, by rw [render]; rfl, rfl⟩
  | .obj [] => ⟨'{', _, by rw [render], rfl⟩
  | .obj ((k, v) :: fs) => ⟨'{', _, by rw [render]; rfl, rfl⟩

theorem kind_eq_of_render {d : Nat} {v w : Json} {r s : Text} (h : render d v ++ r = render d w ++ s) :
    kind v = kind w := by
  obtain ⟨c, cs, hv, hc⟩ := render_head d v
  obtain ⟨c', cs', hw, hc'⟩ := render_head d w
  rw [hv, hw, List.cons_append, List.cons_append, List.cons.injEq] at h
  rw [← hc, ← hc', h.1]

theorem noDigitNext_after_items {d : Nat} (vs : List Json) {r : Text} (hr : r.head? = some '\n') :
    NoDigitNext (renderItems d vs ++ r) := by
  intro c hc
  cases vs with
  | nil => rw [renderItems, List.nil_append, hr, Option.some.injEq] at hc; subst hc; decide
  | cons v vs =>
    simp only [renderItems, List.cons_append, List.head?_cons, Option.some.injEq] at hc
    subst hc; decide

theorem noDigitNext_after_fields {d : Nat} (fs : List (Text × Json)) {r : Text}
    (hr : r.head? = some '\n') : NoDigitNext (renderFields d fs ++ r) := by
  intro c hc
  cases fs with
  | nil => rw [renderFields, List.nil_append, hr, Option.some.injEq] at hc; subst hc; decide
  | cons f fs =>
    obtain ⟨k, v⟩ := f
    simp only [renderFields, List.cons_append, List.head?_cons, Option.some.injEq] at hc
    subst hc; decide

theorem lineStart_head (d : Nat) (r : Text) : (lineStart d ++ r).head? = some '\n' := rfl

mutual
/-- **Reading a value back.** Texts that go on without a digit after it start with one value only. -/
theorem render_append_inj {d : Nat} : ∀ {v w : Json} {r s : Text}, NoDigitNext r → NoDigitNext s →
    render d v ++ r = render d w ++ s → v = w ∧ r = s
  | .null, w, r, s, hr, hs, h => by
    have hk := kind_eq_of_render h
    cases w <;> simp [kind] at hk
    simpa [render] using h
  | .num n, w, r, s, hr, hs, h => by
    have hk := kind_eq_of_render h
    cases w <;> simp [kind] at hk
    rw [render, render] at h
    obtain ⟨rfl, rfl⟩ := decimalInt_append_inj hr hs h
    exact ⟨rfl, rfl⟩
  | .str t, w, r, s, hr, hs, h => by
    have hk := kind_eq_of_render h
    cases w <;> simp [kind] at hk
    rw [render, render] at h
    obtain ⟨rfl, rfl⟩ := quote_append_inj h
    exact ⟨rfl, rfl⟩
  | .arr [], w, r, s, hr, hs, h => by
    have hk := kind_eq_of_render h
    cases w with
    | arr ws =>
      cases ws with
      | nil => simpa [render] using h
      | cons w ws => simp [render, lineStart] at h
    | _ => simp [kind] at hk
  | .arr (v :: vs), w, r, s, hr, hs, h => by
    have hk := kind_eq_of_render h
    cases w with
    | arr ws =>
      cases ws with
      | nil => simp [render, lineStart] at h
      | cons w ws =>
        simp only [render, List.cons_append, List.append_assoc, List.cons.injEq, true_and] at h
        have h1 := List.append_cancel_left h
        obtain ⟨rfl, h2⟩ := render_append_inj (noDigitNext_after_items vs (lineStart_head _ _))
          (noDigitNext_after_items ws (lineStart_head _ _)) h1
        obtain ⟨rfl, h3⟩ := renderItems_append_inj (lineStart_head _ _) (lineStart_head _ _) h2
        have h4 := List.append_cancel_left h3
        simp only [List.nil_append, List.cons.injEq, true_and] at h4
        exact ⟨rfl, h4⟩
    | _ => simp [kind] at hk
  | .obj [], w, r, s, hr, hs, h => by
    have hk := kind_eq_of_render h
    cases w with
    | obj ws =>
      cases ws with
      | nil => simpa [render] using h
      | cons w ws => obtain ⟨k, w⟩ := w; simp [render, lineStart] at h
    | _ => simp [kind] at hk
  | .obj ((k, v) :: fs), w, r, s, hr, hs, h => by
    have hk := kind_eq_of_render h
    cases w with
    | obj ws =>
      cases ws with
      | nil => simp [render, lineStart] at h
      | cons w ws =>
        obtain ⟨k', w⟩ := w
        simp only [render, List.cons_append, List.append_assoc, List.cons.injEq, true_and] at h
        have h1 := List.append_cancel_left h
        obtain ⟨rfl, h2⟩ := quote_append_inj h1
        simp only [List.cons.injEq, true_and] at h2
        obtain ⟨rfl, h3⟩ :=
          render_append_inj (noDigitNext_after_fields fs (lineStart_head _ _))
            (noDigitNext_after_fields ws (lineStart_head _ _)) h2
        obtain ⟨rfl, h4⟩ := renderFields_append_inj (lineStart_head _ _) (lineStart_head _ _) h3
        have h5 := List.append_cancel_left h4
        simp only [List.nil_append, List.cons.injEq, true_and] at h5
        exact ⟨rfl, h5⟩
    | _ => simp [kind] at hk
/-- The items of an array end where no comma follows. -/
theorem renderItems_append_inj {d : Nat} : ∀ {vs ws : List Json} {r s : Text},
    r.head? = some '\n' → s.head? = some '\n' →
    renderItems d vs ++ r = renderItems d ws ++ s → vs = ws ∧ r = s
  | [], [], r, s, _, _, h => ⟨rfl, by simpa [renderItems] using h⟩
  | [], w :: ws, r, s, hr, _, h => by
    simp only [renderItems, List.nil_append, List.cons_append] at h
    simp [h] at hr
  | v :: vs, [], r, s, _, hs, h => by
    simp only [renderItems, List.nil_append, List.cons_append] at h
    simp [← h] at hs
  | v :: vs, w :: ws, r, s, hr, hs, h => by
    simp only [renderItems, List.cons_append, List.append_assoc, List.cons.injEq, true_and] at h
    have h1 := List.append_cancel_left h
    obtain ⟨rfl, h2⟩ := render_append_inj (noDigitNext_after_items vs hr)
      (noDigitNext_after_items ws hs) h1
    obtain ⟨rfl, h3⟩ := renderItems_append_inj hr hs h2
    exact ⟨rfl, h3⟩
/-- The fields of an object end where no comma follows. -/
theorem renderFields_append_inj {d : Nat} : ∀ {vs ws : List (Text × Json)} {r s : Text},
    r.head? = some '\n' → s.head? = some '\n' →
    renderFields d vs ++ r = renderFields d ws ++ s → vs = ws ∧ r = s
  | [], [], r, s, _, _, h => ⟨rfl, by simpa [renderFields] using h⟩
  | [], (k, w) :: ws, r, s, hr, _, h => by
    simp only [renderFields, List.nil_append, List.cons_append] at h
    simp [h] at hr
  | (k, v) :: vs, [], r, s, _, hs, h => by
    simp only [renderFields, List.nil_append, List.cons_append] at h
    simp [← h] at hs
  | (k, v) :: vs, (k', w) :: ws, r, s, hr, hs, h => by
    simp only [renderFields, List.cons_append, List.append_assoc, List.cons.injEq, true_and] at h
    have h1 := List.append_cancel_left h
    obtain ⟨rfl, h2⟩ := quote_append_inj h1
    simp only [List.cons.injEq, true_and] at h2
    obtain ⟨rfl, h3⟩ := render_append_inj (noDigitNext_after_fields vs hr)
      (noDigitNext_after_fields ws hs) h2
    obtain ⟨rfl, h4⟩ := renderFields_append_inj hr hs h3
    exact ⟨rfl, h4⟩
end

/-- **Two values with one text are one value.** -/
theorem stringify_injective : Function.Injective stringify := fun v w h => by
  have hn : NoDigitNext ([] : Text) := by intro c hc; simp at hc
  exact (render_append_inj (d := 0) hn hn (by simpa [stringify] using h)).1

end Js
