import Recouple.Lib.Text

/-!
# Upper case as Unicode maps it

`UpperCase T` is what the Unicode data says of the characters a parser of amounts looks for: ASCII maps to its capitals,
and white space and the ASCII that is no letter are the upper case of themselves alone.

* `filter_toUpperCase`: such characters are the same ones in a text and in its upper case.
-/

namespace Js

/-- White space, or ASCII that is no letter. -/
def isCaseless (c : Char) : Bool := isSpace c || (decide (c.toNat < 128) && !c.isAlpha)

structure UpperCase (T : CaseTables) : Prop where
  ascii : ∀ c, c.toNat < 128 → T.upper c = [c.toUpper]
  /-- A caseless character is the upper case of nothing else. -/
  only : ∀ c d, d ∈ T.upper c → isCaseless d = true → c = d

theorem toNat_of_isAlpha {c : Char} (h : c.isAlpha = true) :
    (65 ≤ c.toNat ∧ c.toNat ≤ 90) ∨ (97 ≤ c.toNat ∧ c.toNat ≤ 122) := by
  simpa [Char.isAlpha, Char.isUpper, Char.isLower, UInt32.le_iff_toNat_le] using h

theorem isSpace_of_isAlpha {c : Char} (h : c.isAlpha = true) : isSpace c = false := by
  have hrange := toNat_of_isAlpha h
  unfold isSpace
  simp only [Bool.or_eq_false_iff, Bool.and_eq_false_iff, decide_eq_false_iff_not, beq_eq_false_iff_ne]
  omega

theorem not_isAlpha_of_isCaseless {c : Char} (h : isCaseless c = true) : c.isAlpha = false := by
  by_contra halpha
  rw [Bool.not_eq_false] at halpha
  simp [isCaseless, isSpace_of_isAlpha halpha, halpha] at h

/-- The tables on ASCII text are such tables. -/
theorem asciiCase_upperCase : UpperCase asciiCase where
  ascii _ _ := rfl
  only c d hd hcaseless := by
    obtain rfl : d = c.toUpper := List.mem_singleton.1 hd
    have halpha := not_isAlpha_of_isCaseless hcaseless
    rw [Char.isAlpha_toUpper_eq_isAlpha] at halpha
    have hlower : ¬ c.isLower = true := fun hlower => by simp [Char.isAlpha, hlower] at halpha
    exact (Char.toUpper_eq_of_not_isLower hlower).symm

section
variable {T : CaseTables}

/-- Caseless ASCII is its own upper case. -/
theorem UpperCase.upper_eq_self (hT : UpperCase T) {c : Char} (hascii : c.toNat < 128) (hcaseless : c.isAlpha = false) :
    T.upper c = [c] := by
  have hlower : ¬ c.isLower = true := fun hlower => by simp [Char.isAlpha, hlower] at hcaseless
  rw [hT.ascii c hascii, Char.toUpper_eq_of_not_isLower hlower]

theorem filter_toUpperCase (hT : UpperCase T) {p : Char → Bool}
    (hp : ∀ c, p c = true → c.toNat < 128 ∧ c.isAlpha = false) (t : Text) :
    (T.toUpperCase t).filter p = t.filter p := by
  have hcaseless : ∀ c, p c = true → isCaseless c = true := by
    intro c hc
    obtain ⟨hascii, halpha⟩ := hp c hc
    simp [isCaseless, hascii, halpha]
  induction t with
  | nil => rfl
  | cons c t ih =>
    rw [CaseTables.toUpperCase, List.flatMap_cons, List.filter_append, ← CaseTables.toUpperCase, ih]
    by_cases hc : p c = true
    · rw [hT.upper_eq_self (hp c hc).1 (hp c hc).2, List.filter_cons_of_pos hc, List.filter_cons_of_pos hc]
      rfl
    · rw [List.filter_cons_of_neg hc, List.filter_eq_nil_iff.2, List.nil_append]
      intro d hd hpd
      obtain rfl := hT.only c d hd (hcaseless d hpd)
      exact hc hpd

end

end Js
