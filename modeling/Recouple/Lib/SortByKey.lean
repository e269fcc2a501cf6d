import Mathlib

/-!
# Sorting by a key

`r` is a comparison that goes by a key in a linear order. Sorted by it, rows of distinct keys stand in
strictly increasing order of key (`pairwise_lt_insertionSort`), and the list no longer depends on the
order it was given in (`insertionSort_congr`). Rows of one key keep the order they came in
(`filter_insertionSort`).
-/

namespace SortByKey

variable {α κ : Type*} [LinearOrder κ] {key : α → κ} {r : α → α → Prop} [DecidableRel r]

theorem pairwise_le_insertionSort (hr : ∀ a b, r a b ↔ key a ≤ key b) (l : List α) :
    (l.insertionSort r).Pairwise fun a b => key a ≤ key b := by
  have : Std.Total r := ⟨fun a b => by rw [hr, hr]; exact le_total _ _⟩
  have : IsTrans α r := ⟨fun a b c hab hbc => by rw [hr] at *; exact le_trans hab hbc⟩
  exact (List.pairwise_insertionSort r l).imp fun h => (hr _ _).1 h

/-- Rows of distinct keys are listed in strictly increasing order of key. -/
theorem pairwise_lt_insertionSort (hr : ∀ a b, r a b ↔ key a ≤ key b) {l : List α}
    (hn : (l.map key).Nodup) : ((l.insertionSort r).map key).Pairwise (· < ·) := by
  have hle : ((l.insertionSort r).map key).Pairwise (· ≤ ·) :=
    List.pairwise_map.2 (pairwise_le_insertionSort hr l)
  have hnd : ((l.insertionSort r).map key).Nodup :=
    ((List.perm_insertionSort r l).map key).nodup_iff.2 hn
  exact (hle.and hnd).imp fun h => lt_of_le_of_ne h.1 h.2

/-- Rows the key tells apart are listed in one order, whatever order they came in. -/
theorem insertionSort_congr_of_apart (hr : ∀ a b, r a b ↔ key a ≤ key b) {l l' : List α} (hp : l.Perm l')
    (ha : ∀ a ∈ l, ∀ b ∈ l, key a = key b → a = b) : l.insertionSort r = l'.insertionSort r := by
  have hperm : (l.insertionSort r).Perm (l'.insertionSort r) :=
    (List.perm_insertionSort r l).trans (hp.trans (List.perm_insertionSort r l').symm)
  refine hperm.eq_of_pairwise (fun a b h h' hab hba => ?_)
    (pairwise_le_insertionSort hr l) (pairwise_le_insertionSort hr l')
  have hl : a ∈ l := (List.perm_insertionSort r l).mem_iff.1 h
  have hl' : b ∈ l := hp.mem_iff.2 ((List.perm_insertionSort r l').mem_iff.1 h')
  exact ha a hl b hl' (le_antisymm hab hba)

/-- Rows of distinct keys are listed in one order, whatever order they came in. -/
theorem insertionSort_congr (hr : ∀ a b, r a b ↔ key a ≤ key b) {l l' : List α} (hp : l.Perm l')
    (hn : (l.map key).Nodup) : l.insertionSort r = l'.insertionSort r :=
  insertionSort_congr_of_apart hr hp fun _ ha _ hb => List.inj_on_of_nodup_map hn ha hb

/-- What the key decides of a row is listed in one order, whatever order the rows came in. -/
theorem map_insertionSort_congr {β : Type*} {f : α → β} (hr : ∀ a b, r a b ↔ key a ≤ key b) {l l' : List α}
    (hp : l.Perm l')
    (hf : ∀ a ∈ l, ∀ b ∈ l, key a = key b → f a = f b) : (l.insertionSort r).map f = (l'.insertionSort r).map f := by
  have hkeys : (l.insertionSort r).map key = (l'.insertionSort r).map key :=
    (((List.perm_insertionSort r l).trans (hp.trans (List.perm_insertionSort r l').symm)).map key).eq_of_pairwise
      (fun _ _ _ _ hab hba => le_antisymm hab hba)
      (List.pairwise_map.2 (pairwise_le_insertionSort hr l)) (List.pairwise_map.2 (pairwise_le_insertionSort hr l'))
  have hsame : List.Forall₂ (fun a b => key a = key b) (l.insertionSort r) (l'.insertionSort r) := by
    rwa [← List.forall₂_eq_eq_eq, List.forall₂_map_left_iff, List.forall₂_map_right_iff] at hkeys
  have hmem : ∀ a ∈ l.insertionSort r, a ∈ l := fun a ha => (List.perm_insertionSort r l).mem_iff.1 ha
  have hmem' : ∀ a ∈ l'.insertionSort r, a ∈ l := fun a ha =>
    hp.mem_iff.2 ((List.perm_insertionSort r l').mem_iff.1 ha)
  clear hkeys
  revert hsame hmem hmem'
  generalize l.insertionSort r = s
  generalize l'.insertionSort r = s'
  intro hsame hmem hmem'
  induction hsame with
  | nil => rfl
  | cons hab _ ih =>
    rw [List.forall_mem_cons] at hmem hmem'
    rw [List.map_cons, List.map_cons, hf _ hmem.1 _ hmem'.1 hab, ih hmem.2 hmem'.2]

theorem filter_orderedInsert (hr : ∀ a b, r a b ↔ key a ≤ key b) {p : α → Bool}
    (hp : ∀ a b, p a = true → p b = true → key a = key b) (a : α) : ∀ l : List α,
    (l.orderedInsert r a).filter p = (a :: l).filter p
  | [] => rfl
  | b :: l => by
    rw [List.orderedInsert_cons]
    split
    · rfl
    · rename_i h
      rw [hr, not_le] at h
      rw [List.filter_cons, filter_orderedInsert hr hp a l, List.filter_cons, List.filter_cons,
        List.filter_cons]
      by_cases hb : p b = true
      · have ha : ¬ p a = true := fun ha => absurd (hp a b ha hb) h.ne'
        rw [if_pos hb, if_neg ha, if_neg ha, if_pos hb]
      · rw [if_neg hb, if_neg hb]

/-- The sort is stable: rows of one key keep the order they came in. -/
theorem filter_insertionSort (hr : ∀ a b, r a b ↔ key a ≤ key b) {p : α → Bool}
    (hp : ∀ a b, p a = true → p b = true → key a = key b) : ∀ l : List α,
    (l.insertionSort r).filter p = l.filter p
  | [] => rfl
  | a :: l => by
    rw [List.insertionSort_cons, filter_orderedInsert hr hp, List.filter_cons, List.filter_cons,
      filter_insertionSort hr hp l]

/-- What is in strictly increasing order of key already comes out of the sort as it was. -/
theorem filter_insertionSort_of_sorted (hr : ∀ a b, r a b ↔ key a ≤ key b) {p : α → Bool} {l : List α}
    (hsorted : (l.filter p).Pairwise fun a b => key a < key b) : (l.insertionSort r).filter p = l.filter p := by
  have hperm : ((l.insertionSort r).filter p).Perm (l.filter p) := (List.perm_insertionSort r l).filter p
  have hinj : ((l.filter p).map key).Nodup := (List.pairwise_map.2 hsorted).imp ne_of_lt
  refine hperm.eq_of_pairwise (fun a b ha hb hab hba => ?_)
    ((pairwise_le_insertionSort hr l).filter p) (hsorted.imp le_of_lt)
  exact List.inj_on_of_nodup_map hinj (hperm.mem_iff.1 ha) hb (le_antisymm hab hba)

/-! ## Comparators -/

section
variable {κ' : Type*} [LinearOrder κ'] {x y : Int} {a b : κ} {c d : κ'}

/-- The number a comparator returns orders two keys: negative, zero or positive. -/
structure Compares (x : Int) (a b : κ) : Prop where
  lt : x < 0 ↔ a < b
  eq : x = 0 ↔ a = b

theorem Compares.le (h : Compares x a b) : x ≤ 0 ↔ a ≤ b := by
  rw [le_iff_lt_or_eq, le_iff_lt_or_eq, h.lt, h.eq]

theorem compares_sub (m n : Int) : Compares (m - n) m n := ⟨by omega, by omega⟩

theorem compares_sub_dual (m n : Int) : Compares (n - m) (OrderDual.toDual m) (OrderDual.toDual n) :=
  ⟨by rw [OrderDual.toDual_lt_toDual]; omega, by rw [OrderDual.toDual_inj]; omega⟩

/-- `x || y`: the second comparator decides between equals of the first. -/
theorem Compares.orElse (h : Compares x a b) (h' : Compares y c d) :
    Compares (if x = 0 then y else x) (toLex (a, c)) (toLex (b, d)) := by
  by_cases hx : x = 0
  · obtain rfl := h.eq.1 hx
    rw [if_pos hx]
    exact ⟨by simp [Prod.Lex.toLex_lt_toLex, h'.lt], by simp [h'.eq]⟩
  · rw [if_neg hx]
    have hne : a ≠ b := fun e => hx (h.eq.2 e)
    exact ⟨by simp [Prod.Lex.toLex_lt_toLex, h.lt, hne], by simp [hx, hne]⟩

end

end SortByKey
