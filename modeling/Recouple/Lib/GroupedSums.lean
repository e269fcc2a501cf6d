import Mathlib

/-!
# `group by`

Rows are grouped by a key and each group is summed. Over distinct keys that cover the rows, the sums of the
groups add up to the sum of the rows (`sum_groups`): each row is in exactly one group.
-/

namespace GroupedSums

variable {α κ : Type*} [DecidableEq κ] (key : α → κ)

/-- The rows of a group. -/
def rowsOf (rows : List α) (k : κ) : List α := rows.filter fun r => key r = k

variable {key}

theorem rowsOf_cons (r : α) (rows : List α) (k : κ) :
    rowsOf key (r :: rows) k = if key r = k then r :: rowsOf key rows k else rowsOf key rows k := by
  by_cases h : key r = k <;> simp [rowsOf, h]

theorem mem_rowsOf {rows : List α} {k : κ} {r : α} : r ∈ rowsOf key rows k ↔ r ∈ rows ∧ key r = k := by
  simp [rowsOf]

/-- **Grouping keeps the sum.** -/
theorem sum_groups {keys : List κ} (hk : keys.Nodup) (f : α → Int) : ∀ {rows : List α}, (∀ r ∈ rows, key r ∈ keys) →
    (keys.map fun k => ((rowsOf key rows k).map f).sum).sum = (rows.map f).sum
  | [], _ => by
    simp [rowsOf]
  | r :: rows, h => by
    rw [List.forall_mem_cons] at h
    have hone : (keys.map fun k => if key r = k then f r else 0).sum = f r := by
      simp only [eq_comm (a := key r)]
      rw [List.sum_map_ite_eq, List.count_eq_one_of_mem hk h.1]
      simp
    have hsplit : (keys.map fun k => ((rowsOf key (r :: rows) k).map f).sum) =
        keys.map fun k => (if key r = k then f r else 0) + ((rowsOf key rows k).map f).sum :=
      List.map_congr_left fun k _ => by
        rw [rowsOf_cons]
        split <;> simp
    rw [hsplit, List.sum_map_add, hone, sum_groups hk f h.2, List.map_cons, List.sum_cons]

/-- Each row is in one group: the sizes of the groups add up. -/
theorem length_groups {keys : List κ} (hk : keys.Nodup) {rows : List α} (h : ∀ r ∈ rows, key r ∈ keys) :
    (keys.map fun k => (rowsOf key rows k).length).sum = rows.length := by
  have hsum := sum_groups hk (fun _ => 1) h
  have hcast : (keys.map fun k => ((rowsOf key rows k).map fun _ => (1 : Int)).sum) =
      (keys.map fun k => (rowsOf key rows k).length).map (Nat.cast : Nat → Int) := by
    rw [List.map_map]
    exact List.map_congr_left fun k _ => by simp
  rw [hcast] at hsum
  have : (((keys.map fun k => (rowsOf key rows k).length).sum : Nat) : Int) = (rows.length : Int) := by
    rw [Nat.cast_list_sum, hsum]
    simp
  exact_mod_cast this

end GroupedSums
