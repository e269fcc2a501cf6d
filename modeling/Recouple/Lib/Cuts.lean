import Mathlib

/-!
# A text put together around a separator

`p ++ c :: x` does not say where it was put together: `append_cons_inj_iff` lists the ways one text can be
cut twice at `c`. Where the last piece has no separator the cut is the last one, and is unique
(`append_cons_inj_of_not_mem`). Pieces joined at `c` split into the pieces of each (`splitOn_intercalate_pieces`), and
so into themselves exactly where none holds the separator (`pieces_eq_iff`).
-/

namespace Cuts

variable {α : Type*} {c : α} {p q x y : List α}

/-- Two cuts at `c` of one list are one cut, or stand either way of each other. -/
theorem append_cons_inj_iff : p ++ c :: x = q ++ c :: y ↔
    (p = q ∧ x = y) ∨ (∃ z, q = p ++ c :: z ∧ x = z ++ c :: y) ∨ (∃ z, p = q ++ c :: z ∧ y = z ++ c :: x) := by
  constructor
  · intro h
    rcases List.append_eq_append_iff.1 h with ⟨z, hq, hx⟩ | ⟨z, hp, hy⟩
    · cases z with
      | nil => exact .inl ⟨by simpa using hq.symm, by simpa using hx⟩
      | cons d z =>
        obtain ⟨rfl, hrest⟩ := List.cons.inj hx
        exact .inr (.inl ⟨z, hq, hrest⟩)
    · cases z with
      | nil => exact .inl ⟨by simpa using hp, by simpa using hy.symm⟩
      | cons d z =>
        obtain ⟨rfl, hrest⟩ := List.cons.inj hy
        exact .inr (.inr ⟨z, hp, hrest⟩)
  · rintro (⟨rfl, rfl⟩ | ⟨z, rfl, rfl⟩ | ⟨z, rfl, rfl⟩)
    · rfl
    · simp
    · simp

/-- A cut with no separator after it is the last one. -/
theorem append_cons_inj_of_not_mem (hx : c ∉ x) (hy : c ∉ y) (h : p ++ c :: x = q ++ c :: y) : p = q ∧ x = y := by
  rcases append_cons_inj_iff.1 h with h | ⟨z, -, rfl⟩ | ⟨z, -, rfl⟩
  · exact h
  · exact absurd (by simp) hx
  · exact absurd (by simp) hy

/-! ## Pieces joined at the separator -/

variable [DecidableEq α] {pieces front back : List (List α)}

theorem splitOn_intercalate_pieces (c : α) (h : pieces ≠ []) :
    ([c].intercalate pieces).splitOn c = pieces.flatMap (·.splitOn c) := by
  induction pieces with
  | nil => exact absurd rfl h
  | cons p pieces ih =>
    cases pieces with
    | nil => simp
    | cons q pieces =>
      rw [List.intercalate_cons_cons, List.append_assoc, List.singleton_append, List.splitOn_append_cons_self,
        ih (List.cons_ne_nil _ _), ← List.flatMap_cons]

theorem length_splitOn (c : α) (l : List α) : (l.splitOn c).length = l.count c + 1 := by
  induction l with
  | nil => rfl
  | cons a l ih =>
    rw [List.splitOn_cons_eq_if_modifyHead, List.count_cons]
    split
    · rw [List.length_cons, ih]
    · rw [List.length_modifyHead, ih, Nat.add_zero]

theorem length_pieces (c : α) (pieces : List (List α)) :
    (pieces.flatMap (·.splitOn c)).length = pieces.length + (pieces.map (·.count c)).sum := by
  induction pieces with
  | nil => rfl
  | cons p pieces ih =>
    rw [List.flatMap_cons, List.length_append, length_splitOn, ih, List.length_cons, List.map_cons, List.sum_cons]
    omega

/-- Pieces split into themselves exactly where none holds the separator: each that does adds to the count. -/
theorem pieces_eq_iff : (front ++ p :: back).flatMap (·.splitOn c) = front ++ p.splitOn c ++ back ↔
    ∀ q ∈ front ++ back, c ∉ q := by
  constructor
  · intro h
    have hcount := congrArg List.length h
    rw [length_pieces] at hcount
    simp only [List.length_append, List.length_cons, length_splitOn, List.map_append, List.map_cons, List.sum_append,
      List.sum_cons] at hcount
    intro q hq hmem
    have hpos : 0 < ((front ++ back).map (·.count c)).sum :=
      Nat.lt_of_lt_of_le (List.count_pos_iff.2 hmem) (List.single_le_sum (by simp) _ (List.mem_map_of_mem hq))
    rw [List.map_append, List.sum_append] at hpos
    omega
  · intro h
    have hself : ∀ pieces : List (List α), (∀ q ∈ pieces, c ∉ q) → pieces.flatMap (·.splitOn c) = pieces := by
      intro pieces hfree
      induction pieces with
      | nil => rfl
      | cons q pieces ih =>
        rw [List.flatMap_cons, List.splitOn_eq_singleton (hfree q (by simp)), List.singleton_append,
          ih fun r hr => hfree r (by simp [hr])]
    rw [List.flatMap_append, List.flatMap_cons, hself front fun q hq => h q (List.mem_append_left _ hq),
      hself back fun q hq => h q (List.mem_append_right _ hq), List.append_assoc]

end Cuts
