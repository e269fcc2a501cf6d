import Recouple.Core.Money
import Recouple.Lib.DoubleBounds

/-!
# Sharing an amount out: `packages/core-domain/src/money.ts` (92-124)

| here | there |
| --- | --- |
| `totalOf` | `weights.reduce((a, b) => a + b, 0)` |
| `shareOf` | one share of the first loop, with its `cents` check |
| `flooredShares` | the checks and the first loop (98-114) |
| `deal` | the loop that hands out the remainder (116-120), one cent a step |

A number is a double: `none` is `Infinity` where the number is a sum or a product, and any number that is not finite
where it is a weight. `remainder` counts down to zero from at most `2 ^ 53`, so its steps are `remainder.toNat`.

* **`allocateCents_exact`**: while the total, the products and the sum of the floors are safe integers, the parts sum to
  the amount, each is its exact share rounded down, and the earliest parts get the cents that are left, one each.
* `allocation_unfair`: the earliest part gets its cent whatever its weight, and a product past the safe integers makes
  parts that sum to more than the amount.
-/

namespace Recouple
open Js

/-- The sum of finite weights. -/
def totalOf (weights : List (Option ℚ)) : Option ℚ :=
  weights.foldl (fun sum w => sum.bind fun a => w.bind fun b => roundDouble (a + b)) (some 0)

/-- `cents(value)` of a number that is no integer. -/
def notInteger {α : Type} (value : Text) : Except Text α := .error ("money must be integer cents, got ".toList ++ value)

/-- `cents(Math.floor((amount * w) / total))` -/
def shareOf (amount : Cents) (total w : Option ℚ) : Except Text Cents :=
  let infinite := if amount.val < 0 then "-Infinity".toList else "Infinity".toList
  match w.bind fun w => roundDouble (amount.val * w), total with
  | some product, some total =>
    match roundDouble (product / total) with
    | some quotient => (cents ⌊quotient⌋).mapError MoneyError.message
    | none => notInteger infinite
  | some _, none => .ok ZERO
  | none, some _ => notInteger infinite
  | none, none => notInteger "NaN".toList

/-- The floored shares, and the cents that are left. -/
def flooredShares (amount : Cents) (weights : List (Option ℚ)) : Except Text (List Cents × Int) :=
  if weights.length = 0 then .error "need at least one weight".toList
  else if weights.any fun w => w.all fun w => decide (w < 0) then
    .error "weights must be finite and non-negative".toList
  else if (totalOf weights).any fun total => decide (total ≤ 0) then
    .error "weights must sum to more than zero".toList
  else do
    let shares ← weights.mapM (shareOf amount (totalOf weights))
    let assigned := shares.foldl (fun assigned share => toDoubleInt (assigned + share.val)) 0
    .ok (shares, toDoubleInt (amount.val - assigned))

/-- One cent to the part at `i`, and on to the next. -/
def deal : Nat → Nat → List Cents → Except Text (List Cents)
  | 0, _, out => .ok out
  | steps + 1, i, out =>
    match out[i]? with
    | none => .error "allocation index out of range".toList
    | some current => do
      let more ← (cents (toDoubleInt (current.val + 1))).mapError MoneyError.message
      deal steps ((i + 1) % out.length) (out.set i more)

def allocateCents (amount : Cents) (weights : List (Option ℚ)) : Except Text (List Cents) := do
  let (shares, remainder) ← flooredShares amount weights
  deal remainder.toNat 0 shares

example : (allocateCents ⟨100, by decide, by decide⟩ [some 1, some 1, some 1]).toOption.map (·.map (·.val)) =
    some [34, 33, 33] := by decide +kernel

/-! ## The shares -/

/-- Weights that are natural numbers. -/
def weighing (weights : List Nat) : List (Option ℚ) := weights.map fun w : Nat => some (w : ℚ)

/-- What a weight gets of the amount, exactly. -/
def exactShare (amount : Cents) (weights : List Nat) (w : Nat) : ℚ := amount.val * w / weights.sum

/-- That, rounded down. -/
def floorShare (amount : Cents) (total w : Nat) : Int := amount.val * w / total

theorem abs_lt_of_inRange {v : Int} (h : InRange v) : |v| < 2 ^ 53 := by
  have h53 : (2 : Int) ^ 53 = maxSafe + 1 := rfl
  rw [h53, abs_lt]
  exact ⟨by have := h.1; omega, by have := h.2; omega⟩

theorem roundDouble_safe {v : Int} (h : InRange v) : roundDouble (v : ℚ) = some (v : ℚ) :=
  roundDouble_int (abs_lt_of_inRange h)

theorem foldl_total {weights : List Nat} : ∀ {acc : Nat}, ((acc + weights.sum : Nat) : Int) ≤ maxSafe →
    (weighing weights).foldl (fun sum w => sum.bind fun a => w.bind fun b => roundDouble (a + b)) (some (acc : ℚ)) =
      some ((acc + weights.sum : Nat) : ℚ) := by
  induction weights with
  | nil => exact fun _ => rfl
  | cons w weights ih =>
    intro acc h
    rw [List.sum_cons, ← Nat.add_assoc] at h ⊢
    have hstep : roundDouble ((acc : ℚ) + w) = some ((acc + w : Nat) : ℚ) := by
      have hrange : InRange ((acc + w : Nat) : Int) := ⟨by unfold maxSafe; omega, by omega⟩
      have hexact := roundDouble_safe hrange
      push_cast at hexact ⊢
      exact hexact
    rw [weighing, List.map_cons, List.foldl_cons, Option.bind_some, Option.bind_some, hstep]
    exact ih h

theorem totalOf_weighing {weights : List Nat} (h : (weights.sum : Int) ≤ maxSafe) :
    totalOf (weighing weights) = some (weights.sum : ℚ) := by
  have hfold := @foldl_total weights 0 (by simpa using h)
  rwa [Nat.zero_add, Nat.cast_zero] at hfold

/-- A share is the floor of its exact value, and no double on the way changes it. -/
theorem shareOf_exact {amount : Cents} {total w : Nat} (hpositive : 0 < total) (htotal : (total : Int) ≤ maxSafe)
    (hle : w ≤ total) (hproduct : InRange (amount.val * w)) :
    ∃ share, shareOf amount (some (total : ℚ)) (some (w : ℚ)) = .ok share ∧ share.val = floorShare amount total w := by
  have hproduct' : roundDouble ((amount.val : ℚ) * w) = some ((amount.val * w : Int) : ℚ) := by
    rw [← roundDouble_safe hproduct]
    push_cast
    rfl
  have h53 : (2 : Int) ^ 53 = maxSafe + 1 := rfl
  obtain ⟨quotient, hquotient, hfloor⟩ :=
    floor_roundDouble_div (abs_lt_of_inRange hproduct) hpositive (by zify; omega)
  have hrange : InRange (amount.val * w / total) := by
    have hw : (w : Int) ≤ total := by omega
    have hpos : (0 : Int) < total := by omega
    constructor
    · rw [Int.le_ediv_iff_mul_le hpos]
      nlinarith [amount.lower, amount.upper, show (0 : Int) ≤ maxSafe by decide]
    · refine Int.ediv_le_of_le_mul hpos ?_
      nlinarith [amount.lower, amount.upper, show (0 : Int) ≤ maxSafe by decide]
  refine ⟨⟨_, hrange.1, hrange.2⟩, ?_, rfl⟩
  unfold shareOf
  simp only [Option.bind_some, hproduct', hquotient, hfloor]
  exact KeyedFold.mapError_ok.2 (cents_ok.2 rfl)

theorem mapM_shareOf {amount : Cents} {total : Nat} (hpositive : 0 < total) (htotal : (total : Int) ≤ maxSafe)
    {weights : List Nat} (hle : ∀ w ∈ weights, w ≤ total) (hproducts : ∀ w ∈ weights, InRange (amount.val * w)) :
    ∃ shares, (weighing weights).mapM (shareOf amount (some (total : ℚ))) = .ok shares ∧
      shares.map (·.val) = weights.map (floorShare amount total) := by
  induction weights with
  | nil => exact ⟨[], rfl, rfl⟩
  | cons w weights ih =>
    rw [List.forall_mem_cons] at hle hproducts
    obtain ⟨share, hshare, hvalue⟩ := shareOf_exact hpositive htotal hle.1 hproducts.1
    obtain ⟨shares, hshares, hvalues⟩ := ih hle.2 hproducts.2
    refine ⟨share :: shares, ?_, by rw [List.map_cons, List.map_cons, hvalue, hvalues]⟩
    rw [weighing, List.map_cons, List.mapM_cons]
    exact KeyedFold.bind_ok.2 ⟨share, hshare, KeyedFold.bind_ok.2 ⟨shares, hshares, rfl⟩⟩

/-! ## What is left -/

theorem foldl_assigned {shares : List Cents} : ∀ {acc : Int},
    (∀ k, InRange (acc + ((shares.take k).map (·.val)).sum)) →
    shares.foldl (fun assigned share => toDoubleInt (assigned + share.val)) acc = acc + (shares.map (·.val)).sum := by
  induction shares with
  | nil => exact fun _ => (Int.add_zero _).symm
  | cons share shares ih =>
    intro acc h
    have hfirst := h 1
    simp only [List.take_succ_cons, List.take_zero, List.map_cons, List.map_nil, List.sum_cons, List.sum_nil,
      Int.add_zero] at hfirst
    rw [List.foldl_cons, toDoubleInt_of_safe hfirst.1 hfirst.2, ih, List.map_cons, List.sum_cons, Int.add_assoc]
    intro k
    have hnext := h (k + 1)
    rwa [List.take_succ_cons, List.map_cons, List.sum_cons, ← Int.add_assoc] at hnext

section
variable {amount : Cents} {weights : List Nat}

/-- The weight's share as a floor and a remainder of the division. -/
theorem floorShare_mod (amount : Cents) (total w : Nat) :
    (total : Int) * floorShare amount total w + amount.val * w % total = amount.val * w :=
  Int.mul_ediv_add_emod _ _

/-- The floors of all the shares. -/
def floors (amount : Cents) (weights : List Nat) : List Int := weights.map (floorShare amount weights.sum)

theorem sum_floorShare (amount : Cents) (weights : List Nat) (total : Nat) :
    (total : Int) * (weights.map (floorShare amount total)).sum +
    (weights.map fun w : Nat => amount.val * w % total).sum = amount.val * weights.sum := by
  induction weights with
  | nil => simp
  | cons w weights ih =>
    simp only [List.map_cons, List.sum_cons, Nat.cast_add, mul_add]
    linarith [floorShare_mod amount total w]

theorem sum_mod_bounds (amount : Cents) (weights : List Nat) {total : Nat} (hpositive : 0 < total) :
    0 ≤ (weights.map fun w : Nat => amount.val * w % total).sum ∧
      (weights.map fun w : Nat => amount.val * w % total).sum ≤ weights.length * ((total : Int) - 1) := by
  induction weights with
  | nil => simp
  | cons w weights ih =>
    have hnonneg := Int.emod_nonneg (amount.val * w) (show (total : Int) ≠ 0 by omega)
    have hlt := Int.emod_lt_of_pos (amount.val * w) (show (0 : Int) < total by omega)
    simp only [List.map_cons, List.sum_cons, List.length_cons, Nat.cast_add, Nat.cast_one, add_mul, one_mul]
    omega

/-- Fewer cents are left than there are parts. -/
theorem remainder_bounds (amount : Cents) (hpositive : 0 < weights.sum) :
    0 ≤ amount.val - (floors amount weights).sum ∧ amount.val - (floors amount weights).sum < weights.length := by
  have hsum := sum_floorShare amount weights weights.sum
  obtain ⟨hlow, hhigh⟩ := sum_mod_bounds amount weights hpositive
  have hlength : 0 < weights.length := by
    rw [List.length_pos_iff]
    rintro rfl
    simp at hpositive
  have htotal : (0 : Int) < weights.sum := by omega
  have hkey : (weights.sum : Int) * (amount.val - (floors amount weights).sum) =
      (weights.map fun w : Nat => amount.val * w % (weights.sum : Int)).sum := by
    unfold floors
    linarith [mul_comm amount.val (weights.sum : Int)]
  constructor
  · by_contra hneg
    nlinarith
  · by_contra hge
    have hlength' : (0 : Int) < weights.length := by omega
    nlinarith

theorem floors_nonneg (h : 0 ≤ amount.val) : ∀ v ∈ floors amount weights, 0 ≤ v := by
  intro v hv
  obtain ⟨w, -, rfl⟩ := List.mem_map.1 hv
  exact Int.ediv_nonneg (mul_nonneg h (by omega)) (by omega)

theorem floors_nonpos (hpositive : 0 < weights.sum) (h : amount.val ≤ 0) : ∀ v ∈ floors amount weights, v ≤ 0 := by
  intro v hv
  obtain ⟨w, -, rfl⟩ := List.mem_map.1 hv
  exact Int.ediv_nonpos_of_nonpos_of_neg (mul_nonpos_of_nonpos_of_nonneg h (by omega)) (by omega)

end

theorem sum_nonpos {l : List Int} (h : ∀ v ∈ l, v ≤ 0) : l.sum ≤ 0 := by
  have hcard := List.sum_le_card_nsmul l 0 h
  rwa [nsmul_zero] at hcard

/-- Numbers of one sign add up without leaving the range their sum is in. -/
theorem partial_inRange {l : List Int} (hsign : (∀ v ∈ l, 0 ≤ v) ∨ ∀ v ∈ l, v ≤ 0) (h : InRange l.sum) (k : Nat) :
    InRange (l.take k).sum := by
  have hsplit := List.sum_take_add_sum_drop l k
  have hzero : -maxSafe ≤ 0 ∧ 0 ≤ maxSafe := by decide
  unfold InRange at *
  rcases hsign with hsign | hsign
  · have htake : 0 ≤ (l.take k).sum := List.sum_nonneg fun v hv => hsign v (List.mem_of_mem_take hv)
    have hdrop : 0 ≤ (l.drop k).sum := List.sum_nonneg fun v hv => hsign v (List.mem_of_mem_drop hv)
    omega
  · have htake : (l.take k).sum ≤ 0 := sum_nonpos fun v hv => hsign v (List.mem_of_mem_take hv)
    have hdrop : (l.drop k).sum ≤ 0 := sum_nonpos fun v hv => hsign v (List.mem_of_mem_drop hv)
    omega

/-! ## One cent a step -/

/-- The cents are handed to the parts from `i` on, one each. -/
theorem deal_ok {steps : Nat} : ∀ {i : Nat} {out : List Cents}, i + steps < out.length →
    (∀ j c, i ≤ j → j < i + steps → out[j]? = some c → InRange (c.val + 1)) →
    ∃ parts, deal steps i out = .ok parts ∧ parts.length = out.length ∧
      (parts.map (·.val)).sum = (out.map (·.val)).sum + steps ∧
      ∀ j c, out[j]? = some c → ∃ p : Cents, parts[j]? = some p ∧
        p.val = c.val + if i ≤ j ∧ j < i + steps then 1 else 0 := by
  induction steps with
  | zero =>
    intro i out _ _
    refine ⟨out, rfl, rfl, (Int.add_zero _).symm, fun j c hj => ⟨c, hj, ?_⟩⟩
    rw [if_neg (by omega), Int.add_zero]
  | succ steps ih =>
    intro i out hlength hrange
    have hi : i < out.length := by omega
    have hcurrent : out[i]? = some out[i] := List.getElem?_eq_getElem hi
    have hmore := hrange i out[i] le_rfl (by omega) hcurrent
    have hnext : ∀ j c, i + 1 ≤ j → j < i + 1 + steps →
        (out.set i ⟨out[i].val + 1, hmore.1, hmore.2⟩)[j]? = some c → InRange (c.val + 1) := by
      intro j c hj hlt hc
      rw [List.getElem?_set_ne (by omega)] at hc
      exact hrange j c (by omega) (by omega) hc
    obtain ⟨parts, hdeal, hlen, hsum, hparts⟩ := ih (by rw [List.length_set]; omega) hnext
    refine ⟨parts, ?_, by rw [hlen, List.length_set], ?_, fun j c hj => ?_⟩
    · unfold deal
      rw [hcurrent, Nat.mod_eq_of_lt (by omega)]
      exact KeyedFold.bind_ok.2 ⟨_, KeyedFold.mapError_ok.2 (cents_toDoubleInt_ok.2 rfl), hdeal⟩
    · rw [hsum, List.map_set, List.sum_set', dif_pos (by simpa using hi), List.getElem_map]
      push_cast
      ring
    · by_cases hij : j = i
      · subst hij
        obtain ⟨p, hp, hvalue⟩ := hparts j _ (List.getElem?_set_self hi)
        obtain rfl := Option.some.inj (hcurrent.symm.trans hj)
        refine ⟨p, hp, ?_⟩
        rw [hvalue, if_neg (by omega), if_pos (by omega), Int.add_zero]
      · obtain ⟨p, hp, hvalue⟩ := hparts j c (by rw [List.getElem?_set_ne (Ne.symm hij)]; exact hj)
        refine ⟨p, hp, ?_⟩
        rw [hvalue]
        congr 1
        exact if_congr (by omega) rfl rfl

/-! ## What is returned -/

/-- The amount, shared out in a number of steps. -/
structure Allocated (amount : Cents) (weights : List Nat) (steps : Nat) (parts : List Cents) : Prop where
  length : parts.length = weights.length
  steps_lt : steps < weights.length
  sum : (parts.map (·.val)).sum = amount.val
  part : ∀ (i w : Nat) (p : Cents), weights[i]? = some w → parts[i]? = some p →
    p.val = ⌊exactShare amount weights w⌋ + if i < steps then 1 else 0
  near : ∀ (i w : Nat) (p : Cents), weights[i]? = some w → parts[i]? = some p →
    |(p.val : ℚ) - exactShare amount weights w| ≤ 1
  /-- Only a whole share among the earliest is off by a cent. -/
  fair : ∀ (i w : Nat) (p : Cents), weights[i]? = some w → parts[i]? = some p →
    steps ≤ i ∨ (∀ n : Int, exactShare amount weights w ≠ n) → |(p.val : ℚ) - exactShare amount weights w| < 1
  nothing : ∀ (i : Nat) (p : Cents), weights[i]? = some 0 → parts[i]? = some p → steps ≤ i → p.val = 0

section
variable {amount : Cents} {weights : List Nat}

theorem floor_exactShare (w : Nat) : ⌊exactShare amount weights w⌋ = floorShare amount weights.sum w := by
  have hcast : exactShare amount weights w = ((amount.val * w : Int) : ℚ) / (weights.sum : ℚ) := by
    unfold exactShare
    push_cast
    rfl
  rw [hcast, Rat.floor_intCast_div_natCast]
  rfl

/-- Each part follows from its floor. -/
theorem Allocated.of_part {steps : Nat} {parts : List Cents} (hlength : parts.length = weights.length)
    (hsteps : steps < weights.length) (hsum : (parts.map (·.val)).sum = amount.val)
    (hpart : ∀ (i w : Nat) (p : Cents), weights[i]? = some w → parts[i]? = some p →
      p.val = ⌊exactShare amount weights w⌋ + if i < steps then 1 else 0) : Allocated amount weights steps parts where
  length := hlength
  steps_lt := hsteps
  sum := hsum
  part := hpart
  near i w p hw hp := by
    have hlow := Int.floor_le (exactShare amount weights w)
    have hhigh := Int.lt_floor_add_one (exactShare amount weights w)
    rw [hpart i w p hw hp, abs_le]
    split <;> push_cast <;> constructor <;> linarith
  fair i w p hw hp hfair := by
    have hlow := Int.floor_le (exactShare amount weights w)
    have hhigh := Int.lt_floor_add_one (exactShare amount weights w)
    rw [hpart i w p hw hp, abs_lt]
    split
    case isTrue hlt =>
      have hne := (hfair.resolve_left (by omega)) ⌊exactShare amount weights w⌋
      have hstrict := lt_of_le_of_ne hlow hne.symm
      push_cast
      constructor <;> linarith
    case isFalse =>
      push_cast
      constructor <;> linarith
  nothing i p hw hp hle := by
    rw [hpart i 0 p hw hp, if_neg (by omega)]
    simp [exactShare]

/-- The two passes before the remainder is dealt. -/
theorem flooredShares_exact (hpositive : 0 < weights.sum) (htotal : (weights.sum : Int) ≤ maxSafe)
    (hproducts : ∀ w ∈ weights, InRange (amount.val * w)) (hfloors : InRange (floors amount weights).sum) :
    ∃ shares, flooredShares amount (weighing weights) = .ok (shares, amount.val - (floors amount weights).sum) ∧
      shares.map (·.val) = floors amount weights := by
  have htotalOf := totalOf_weighing htotal
  obtain ⟨shares, hshares, hvalues⟩ : ∃ shares,
      (weighing weights).mapM (shareOf amount (some (weights.sum : ℚ))) = .ok shares ∧
        shares.map (·.val) = floors amount weights :=
    mapM_shareOf hpositive htotal (fun w hw => List.le_sum_of_mem hw) hproducts
  have hsign : (∀ v ∈ floors amount weights, 0 ≤ v) ∨ ∀ v ∈ floors amount weights, v ≤ 0 := by
    rcases le_total 0 amount.val with h | h
    · exact .inl (floors_nonneg h)
    · exact .inr (floors_nonpos hpositive h)
  have hassigned : shares.foldl (fun assigned share => toDoubleInt (assigned + share.val)) 0 =
      (floors amount weights).sum := by
    rw [foldl_assigned, hvalues, Int.zero_add]
    intro k
    rw [Int.zero_add, List.map_take, hvalues]
    exact partial_inRange hsign hfloors k
  have hremainder : toDoubleInt (amount.val - (floors amount weights).sum) =
      amount.val - (floors amount weights).sum := by
    have hzero : -maxSafe ≤ 0 := by decide
    refine toDoubleInt_of_safe (hzero.trans (remainder_bounds amount hpositive).1) ?_
    rcases le_total 0 amount.val with h | h
    · have hsum : 0 ≤ (floors amount weights).sum := List.sum_nonneg (floors_nonneg h)
      have := amount.upper
      omega
    · have := hfloors.1
      omega
  have hlength : ¬ (weighing weights).length = 0 := by
    rw [weighing, List.length_map, List.length_eq_zero_iff]
    rintro rfl
    simp at hpositive
  have hfinite : ¬ (weighing weights).any (fun w => w.all fun w => decide (w < 0)) = true := by
    rw [weighing, List.any_map, List.any_eq_true]
    rintro ⟨w, -, hw⟩
    have hneg : (w : ℚ) < 0 := by simpa using hw
    exact absurd hneg (not_lt.2 (Nat.cast_nonneg w))
  have htotal' : ¬ ((some (weights.sum : ℚ)).any fun total => decide (total ≤ 0)) = true := by
    rw [Option.any_some, decide_eq_true_iff, not_le]
    exact_mod_cast hpositive
  refine ⟨shares, ?_, hvalues⟩
  unfold flooredShares
  rw [if_neg hlength, if_neg hfinite, htotalOf, if_neg htotal']
  refine KeyedFold.bind_ok.2 ⟨shares, hshares, ?_⟩
  dsimp only
  rw [hassigned, hremainder]

/-- While a cent is left, every share has room for one more. -/
theorem room_of_floor (hpositive : 0 < weights.sum) (hleft : 0 < amount.val - (floors amount weights).sum) {v : Int}
    (hv : v ∈ floors amount weights) (hlow : -maxSafe ≤ v) : InRange (v + 1) := by
  have hone : 1 ≤ maxSafe := by decide
  have hupper := amount.upper
  rcases le_total 0 amount.val with h | h
  · have hle : v ≤ (floors amount weights).sum := List.single_le_sum (floors_nonneg h) _ hv
    exact ⟨by omega, by omega⟩
  · have hle := floors_nonpos hpositive h _ hv
    exact ⟨by omega, by omega⟩

/-- While its numbers stay safe, the sharing returns: every part is its floor, and the earliest have a cent more. -/
theorem allocateCents_exact (hpositive : 0 < weights.sum) (htotal : (weights.sum : Int) ≤ maxSafe)
    (hproducts : ∀ w ∈ weights, InRange (amount.val * w)) (hfloors : InRange (floors amount weights).sum) :
    ∃ shares remainder parts, flooredShares amount (weighing weights) = .ok (shares, remainder) ∧
      allocateCents amount (weighing weights) = .ok parts ∧ Allocated amount weights remainder.toNat parts := by
  obtain ⟨shares, hfloored, hvalues⟩ := flooredShares_exact hpositive htotal hproducts hfloors
  obtain ⟨hnonneg, hlt⟩ := remainder_bounds amount hpositive
  have hlength : shares.length = weights.length := by
    simpa [floors] using congrArg List.length hvalues
  obtain ⟨steps, hsteps⟩ := Int.eq_ofNat_of_zero_le hnonneg
  have hroom : ∀ j c, 0 ≤ j → j < 0 + steps → shares[j]? = some c → InRange (c.val + 1) := by
    intro j c _ hj hc
    refine @room_of_floor amount weights hpositive (by omega) _ ?_ c.lower
    rw [← hvalues]
    exact List.mem_map_of_mem (List.mem_of_getElem? hc)
  obtain ⟨parts, hdeal, hlen, hsum, hparts⟩ := deal_ok (by omega) hroom
  rw [hsteps] at hfloored
  refine ⟨shares, steps, parts, hfloored, KeyedFold.bind_ok.2 ⟨_, hfloored, hdeal⟩, ?_⟩
  refine .of_part (by omega) (by omega) ?_ fun i w p hw hp => ?_
  · rw [hsum, hvalues, ← hsteps]
    ring
  · obtain ⟨share, hshare⟩ : ∃ share, shares[i]? = some share :=
      ⟨_, List.getElem?_eq_getElem (by have := (List.getElem?_eq_some_iff.1 hw).1; omega)⟩
    obtain ⟨p', hp', hvalue⟩ := hparts i share hshare
    obtain rfl := Option.some.inj (hp.symm.trans hp')
    have hfloor : share.val = floorShare amount weights.sum w := by
      have hat := congrArg (fun l : List Int => l[i]?) hvalues
      simpa [floors, hshare, hw] using hat
    rw [hvalue, hfloor, floor_exactShare]
    congr 1
    exact if_congr (by omega) rfl rfl

end

/-- Ten dollars and a cent over weights of one, two and four. -/
theorem one_two_four_allocated : ∃ shares remainder parts,
    flooredShares ⟨1001, by decide, by decide⟩ (weighing [1, 2, 4]) = .ok (shares, remainder) ∧
      allocateCents ⟨1001, by decide, by decide⟩ (weighing [1, 2, 4]) = .ok parts ∧
      Allocated ⟨1001, by decide, by decide⟩ [1, 2, 4] remainder.toNat parts :=
  allocateCents_exact (by decide) (by decide) (by decide) (by decide)

/-- A cent over weights zero, one and one goes to the first; and `2 ^ 53 - 110` over two and three makes one more. -/
theorem allocation_unfair :
    (¬ ∀ amount weights parts, 0 < List.sum weights → allocateCents amount (weighing weights) = .ok parts →
      ∀ (i : Nat) (p : Cents), weights[i]? = some 0 → parts[i]? = some p → p.val = 0) ∧
    ¬ ∀ amount weights parts, 0 < List.sum weights → allocateCents amount (weighing weights) = .ok parts →
      (parts.map (·.val)).sum = amount.val := by
  constructor
  · intro h
    have hparts : allocateCents ⟨1, by decide, by decide⟩ (weighing [0, 1, 1]) =
        .ok [⟨1, by decide, by decide⟩, ⟨0, by decide, by decide⟩, ⟨0, by decide, by decide⟩] := by decide +kernel
    exact absurd (h _ _ _ (by decide) hparts 0 _ rfl rfl) (by decide)
  · intro h
    have hparts : allocateCents ⟨9007199254740882, by decide, by decide⟩ (weighing [2, 3]) =
        .ok [⟨3602879701896353, by decide, by decide⟩, ⟨5404319552844530, by decide, by decide⟩] := by decide +kernel
    exact absurd (h _ _ _ (by decide) hparts) (by decide)

end Recouple
