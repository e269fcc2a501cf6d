import Mathlib
import Recouple.Lib.Text

/-!
# JavaScript numbers, as far as they hold integers

A number is a double. Integers below `2 ^ 53` are exact; from there on a result is the nearest
double, ties to the even one (`toDouble`), and past the largest finite double it is `Infinity`
(`numberOf`, with `⊤` for it).
-/

namespace Js

/-- `Number.MAX_SAFE_INTEGER`. -/
def maxSafe : Int := 9007199254740991

/-- The double nearest to a natural number, ties to even. -/
def toDouble (n : Nat) : Nat :=
  if n < 2 ^ 53 then n
  else
    let u := 2 ^ (Nat.log2 n - 52)
    if 2 * (n % u) < u ∨ (2 * (n % u) = u ∧ n / u % 2 = 0) then n / u * u else (n / u + 1) * u

theorem toDouble_of_lt {n : Nat} (h : n < 2 ^ 53) : toDouble n = n := if_pos h

/-- The double nearest to an integer. -/
def toDoubleInt (n : Int) : Int := if n < 0 then -(toDouble n.natAbs : Int) else toDouble n.natAbs

theorem toDoubleInt_of_safe {n : Int} (h : -maxSafe ≤ n) (h' : n ≤ maxSafe) : toDoubleInt n = n := by
  unfold maxSafe at h h'
  have : toDouble n.natAbs = n.natAbs := toDouble_of_lt (by omega)
  unfold toDoubleInt
  split <;> omega

theorem le_toDouble {n : Nat} (h : 2 ^ 53 ≤ n) : 2 ^ 53 ≤ toDouble n := by
  have hn : n ≠ 0 := by rintro rfl; simp at h
  have hlog : 53 ≤ Nat.log2 n := (Nat.le_log2 hn).2 h
  -- `u` is the spacing of doubles at `n`, so `n / u` has all 53 bits
  have hu : 2 ^ 52 * 2 ^ (Nat.log2 n - 52) ≤ n := by
    rw [← Nat.pow_add, show 52 + (Nat.log2 n - 52) = Nat.log2 n by omega]
    exact Nat.log2_self_le hn
  have hpos : 0 < 2 ^ (Nat.log2 n - 52) := Nat.two_pow_pos _
  have hdiv : 2 ^ 52 ≤ n / 2 ^ (Nat.log2 n - 52) := (Nat.le_div_iff_mul_le hpos).2 hu
  have htwo : 2 ≤ 2 ^ (Nat.log2 n - 52) := by
    calc 2 = 2 ^ 1 := rfl
      _ ≤ 2 ^ (Nat.log2 n - 52) := Nat.pow_le_pow_right (by omega) (by omega)
  have hfloor : 2 ^ 52 * 2 ≤ n / 2 ^ (Nat.log2 n - 52) * 2 ^ (Nat.log2 n - 52) :=
    Nat.mul_le_mul hdiv htwo
  have hceil : n / 2 ^ (Nat.log2 n - 52) * 2 ^ (Nat.log2 n - 52) ≤
      (n / 2 ^ (Nat.log2 n - 52) + 1) * 2 ^ (Nat.log2 n - 52) := Nat.mul_le_mul_right _ (by omega)
  unfold toDouble
  rw [if_neg (by omega)]
  dsimp only
  split <;> omega

/-- Rounding to a double never brings an unsafe integer back into the safe range. -/
theorem toDoubleInt_of_unsafe {n : Int} (h : ¬ (-maxSafe ≤ n ∧ n ≤ maxSafe)) :
    toDoubleInt n < -maxSafe ∨ maxSafe < toDoubleInt n := by
  unfold maxSafe at h ⊢
  have : 2 ^ 53 ≤ toDouble n.natAbs := le_toDouble (by omega)
  unfold toDoubleInt
  split <;> omega

/-- `Number(digits)`: the value, or `⊤` where no finite double is near enough. -/
def numberOf (n : Nat) : WithTop Nat :=
  if n < 2 ^ 53 then ↑n else if toDouble n < 2 ^ 1024 then ↑(toDouble n) else ⊤

/-! ## Decimal digits -/

/-- `String(n)` for an integer a double holds exactly. -/
def decimal (n : Nat) : Text := Nat.toDigits 10 n

def decimalInt (n : Int) : Text := if n < 0 then '-' :: decimal n.natAbs else decimal n.natAbs

theorem isDigit_of_mem_decimal {n : Nat} {c : Char} (h : c ∈ decimal n) : c.isDigit = true :=
  Nat.isDigit_of_mem_toDigits (by omega) (by omega) h

theorem decimal_ne_nil (n : Nat) : decimal n ≠ [] := Nat.toDigits_ne_nil

theorem decimal_injective : Function.Injective decimal := fun a b h => by
  have := congrArg (fun l => Nat.ofDigitChars 10 l 0) h
  simpa [decimal, Nat.ofDigitChars_ten_toDigits] using this

/-- The fewest digits that round to the double `n`, and how many zeros stand for the rest. -/
def shortest (n : Nat) : Nat × Nat :=
  let d := (decimal n).length
  ((List.range d).findSome? fun k =>
    let u := 10 ^ (d - (k + 1))
    let near := if 2 * (n % u) ≤ u then [n / u, n / u + 1] else [n / u + 1, n / u]
    (near.find? fun s => toDouble (s * u) = n).map fun s => (s, d - (k + 1))).getD (n, 0)

/-- `String(n)` for a double that is an integer, or `Infinity`. -/
def showNumber : WithTop Nat → Text
  | none => "Infinity"
  | some n =>
    let (s, zeros) := shortest n
    let digits := decimal s
    if digits.length + zeros ≤ 21 then digits ++ List.replicate zeros '0'
    else
      (match digits with
        | [] => []
        | [d] => [d]
        | d :: ds => d :: '.' :: ds) ++ 'e' :: '+' :: decimal (digits.length + zeros - 1)

example : showNumber ((2 ^ 60 : Nat) : WithTop Nat) = "1152921504606847000".toList := by decide

/-- A text whose first character, if any, is no digit: what may follow a number. -/
def NoDigitNext (r : Text) : Prop := ∀ c, r.head? = some c → c.isDigit = false

theorem takeWhile_decimal_append (n : Nat) {r : Text} (hr : NoDigitNext r) :
    (decimal n ++ r).takeWhile Char.isDigit = decimal n := by
  rw [List.takeWhile_append_of_pos (fun c hc => isDigit_of_mem_decimal hc)]
  cases r with
  | nil => simp
  | cons c cs => simp [hr c rfl]

/-- A number ends where its digits do. -/
theorem decimal_append_inj {a b : Nat} {r s : Text} (hr : NoDigitNext r) (hs : NoDigitNext s)
    (h : decimal a ++ r = decimal b ++ s) : a = b ∧ r = s := by
  have hd : decimal a = decimal b := by
    rw [← takeWhile_decimal_append a hr, ← takeWhile_decimal_append b hs, h]
  exact ⟨decimal_injective hd, List.append_cancel_left (hd ▸ h)⟩

theorem decimalInt_head (n : Int) : ∃ c cs, decimalInt n = c :: cs ∧ (c.isDigit = true ∨ c = '-') := by
  unfold decimalInt
  split
  · exact ⟨'-', _, rfl, .inr rfl⟩
  · obtain ⟨c, cs, h⟩ := List.exists_cons_of_ne_nil (decimal_ne_nil n.natAbs)
    exact ⟨c, cs, h, .inl (isDigit_of_mem_decimal (by rw [h]; simp))⟩

theorem decimalInt_append_inj {a b : Int} {r s : Text} (hr : NoDigitNext r) (hs : NoDigitNext s)
    (h : decimalInt a ++ r = decimalInt b ++ s) : a = b ∧ r = s := by
  have clash : ∀ (x : Nat) (p q : Text), decimal x ++ p ≠ '-' :: q := by
    intro x p q e
    obtain ⟨c, cs, hc⟩ := List.exists_cons_of_ne_nil (decimal_ne_nil x)
    rw [hc, List.cons_append, List.cons.injEq] at e
    have : c.isDigit = true := isDigit_of_mem_decimal (by rw [hc]; simp)
    rw [e.1] at this
    exact absurd this (by decide)
  unfold decimalInt at h
  split at h <;> split at h
  · obtain ⟨e, hrs⟩ := decimal_append_inj hr hs (List.cons.inj h).2
    exact ⟨by omega, hrs⟩
  · exact absurd h.symm (clash _ _ _)
  · exact absurd h (clash _ _ _)
  · obtain ⟨e, hrs⟩ := decimal_append_inj hr hs h
    exact ⟨by omega, hrs⟩

/-- Commas between groups of three, from the right: `groups` reads the digits last to first. -/
def groups : Text → Text
  | a :: b :: c :: d :: rest => a :: b :: c :: ',' :: groups (d :: rest)
  | short => short

/-- `n.toLocaleString('en-US')`. -/
def localeDecimal (n : Nat) : Text := (groups (decimal n).reverse).reverse

end Js
