import Mathlib

/-!
# Tables of rows with keys

A table is the list of its rows, oldest first, and `key` is the column that no two rows share. `lookup` reads a
row, `modify` updates one in place, and a new row goes to the end.
-/

namespace Rows
variable {α κ : Type} [DecidableEq κ] {key : α → κ}

def lookup (key : α → κ) (rows : List α) (k : κ) : Option α := rows.find? fun r => key r = k

def modify (key : α → κ) (rows : List α) (k : κ) (f : α → α) : List α :=
  rows.map fun r => if key r = k then f r else r

section
variable {rows : List α} {k : κ} {r : α}

theorem key_of_lookup (h : lookup key rows k = some r) : key r = k := by
  simpa using List.find?_some h

theorem mem_of_lookup (h : lookup key rows k = some r) : r ∈ rows := List.mem_of_find?_eq_some h

theorem lookup_eq_none : lookup key rows k = none ↔ ∀ r ∈ rows, key r ≠ k := by
  simp [lookup]

/-- A row is what its key leads to. -/
theorem lookup_eq_some (h : (rows.map key).Nodup) : lookup key rows k = some r ↔ r ∈ rows ∧ key r = k := by
  constructor
  · exact fun hr => ⟨mem_of_lookup hr, key_of_lookup hr⟩
  · rintro ⟨hmem, rfl⟩
    cases hfound : lookup key rows (key r) with
    | none => exact absurd rfl (lookup_eq_none.1 hfound r hmem)
    | some r' => rw [List.inj_on_of_nodup_map h (mem_of_lookup hfound) hmem (key_of_lookup hfound)]

theorem lookup_concat (rows : List α) (new : α) (k : κ) :
    lookup key (rows ++ [new]) k = (lookup key rows k).or (if key new = k then some new else none) := by
  rw [lookup, lookup, List.find?_append]
  by_cases h : key new = k <;> simp [h]

/-- A row of a new key is read under its key, and every other row as before. -/
theorem lookup_insert {new : α} (hnew : lookup key rows (key new) = none) (k : κ) :
    lookup key (rows ++ [new]) k = if k = key new then some new else lookup key rows k := by
  rw [lookup_concat]
  by_cases hk : k = key new
  · subst hk
    rw [hnew, if_pos rfl, Option.none_or]
  · rw [if_neg hk, if_neg (Ne.symm hk), Option.or_none]

theorem nodup_insert {new : α} (h : (rows.map key).Nodup) (hnew : lookup key rows (key new) = none) :
    ((rows ++ [new]).map key).Nodup := by
  rw [List.map_append, List.map_singleton, List.nodup_append]
  refine ⟨h, List.nodup_singleton _, fun k hk k' hk' he => ?_⟩
  obtain ⟨r, hr, rfl⟩ := List.mem_map.1 hk
  exact lookup_eq_none.1 hnew r hr (he.trans (List.mem_singleton.1 hk'))

theorem keys_modify {f : α → α} (hf : ∀ r, key (f r) = key r) : (modify key rows k f).map key = rows.map key := by
  rw [modify, List.map_map]
  refine List.map_congr_left fun r _ => ?_
  simp only [Function.comp]
  split
  · exact hf r
  · rfl

theorem lookup_modify {f : α → α} (hf : ∀ r, key (f r) = key r) (k' : κ) :
    lookup key (modify key rows k f) k' = if k' = k then (lookup key rows k').map f else lookup key rows k' := by
  rw [lookup, modify, List.find?_map]
  have hkey : (fun r => decide (key r = k')) ∘ (fun r => if key r = k then f r else r) = fun r => decide (key r = k') := by
    funext r
    simp only [Function.comp]
    split
    · rw [hf]
    · rfl
  rw [hkey]
  cases hfound : rows.find? fun r => decide (key r = k') with
  | none => simp [lookup, hfound]
  | some r =>
    have hr : key r = k' := by simpa using List.find?_some hfound
    simp only [lookup, hfound, Option.map_some, hr]
    split <;> rfl

theorem mem_modify {f : α → α} {r' : α} :
    r' ∈ modify key rows k f ↔ ∃ r ∈ rows, r' = if key r = k then f r else r := by
  simp [modify, eq_comm]

/-- Updating a row to what it is changes nothing. -/
theorem modify_self {f : α → α} (hf : ∀ r ∈ rows, key r = k → f r = r) : modify key rows k f = rows := by
  refine (List.map_congr_left fun r hr => ?_).trans (List.map_id _)
  split
  · rename_i h
    exact hf r hr h
  · rfl

end

end Rows
