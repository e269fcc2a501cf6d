import Mathlib

/-!
# Rows grouped by a key

The loop `map.set(key, [...(map.get(key) ?? []), row])` over a `Map` that lists its keys in insertion
order. `mem_groupBy` says what the map holds in the end: under each key that occurs, all of its rows in
their order.
-/

namespace Groups

variable {α κ : Type*} [DecidableEq κ]

/-- The row joins those of its key, or opens a group at the end. -/
def push (k : κ) (row : α) : List (κ × List α) → List (κ × List α)
  | [] => [(k, [row])]
  | group :: rest => if group.1 = k then (k, group.2 ++ [row]) :: rest else group :: push k row rest

/-- `map.get(key) ?? []` -/
def rowsAt (groups : List (κ × List α)) (k : κ) : List α :=
  ((groups.find? fun group => group.1 = k).map Prod.snd).getD []

def groupBy (key : α → κ) (rows : List α) : List (κ × List α) :=
  rows.foldl (fun groups row => push (key row) row groups) []

theorem rowsAt_push (k k' : κ) (row : α) : ∀ groups : List (κ × List α),
    rowsAt (push k row groups) k' = rowsAt groups k' ++ if k = k' then [row] else []
  | [] => by
    by_cases h : k = k' <;> simp [push, rowsAt, h]
  | group :: rest => by
    have ih := rowsAt_push k k' row rest
    unfold rowsAt at ih ⊢
    rw [push]
    by_cases hg : group.1 = k
    · by_cases h : k = k'
      · simp [hg, h]
      · simp [hg, h]
    · rw [if_neg hg]
      by_cases h : group.1 = k'
      · have hk : k ≠ k' := fun e => hg (h.trans e.symm)
        simp [h, hk]
      · simpa [List.find?_cons, h] using ih

theorem keys_push (k : κ) (row : α) : ∀ groups : List (κ × List α),
    (push k row groups).map Prod.fst =
      if k ∈ groups.map Prod.fst then groups.map Prod.fst else groups.map Prod.fst ++ [k]
  | [] => by simp [push]
  | group :: rest => by
    have ih := keys_push k row rest
    rw [push]
    by_cases hg : group.1 = k
    · simp [hg]
    · rw [if_neg hg, List.map_cons, ih]
      by_cases hr : k ∈ rest.map Prod.fst <;> simp [hr, Ne.symm hg]

theorem mem_keys_push {k k' : κ} {row : α} {groups : List (κ × List α)} :
    k' ∈ (push k row groups).map Prod.fst ↔ k' = k ∨ k' ∈ groups.map Prod.fst := by
  rw [keys_push]
  split
  · rename_i h
    constructor
    · exact .inr
    · rintro (rfl | h')
      · exact h
      · exact h'
  · rw [List.mem_append, List.mem_singleton, or_comm]

section
variable (key : α → κ)

theorem groupBy_concat (rows : List α) (row : α) :
    groupBy key (rows ++ [row]) = push (key row) row (groupBy key rows) := by
  simp [groupBy]

/-- A key's group is its rows. -/
theorem rowsAt_groupBy (rows : List α) (k : κ) :
    rowsAt (groupBy key rows) k = rows.filter fun row => key row = k := by
  induction rows using List.reverseRecOn with
  | nil => rfl
  | append_singleton rows row ih =>
    rw [groupBy_concat, rowsAt_push, ih, List.filter_append]
    by_cases h : key row = k <;> simp [h]

theorem nodup_keys (rows : List α) : ((groupBy key rows).map Prod.fst).Nodup := by
  induction rows using List.reverseRecOn with
  | nil => simp [groupBy]
  | append_singleton rows row ih =>
    rw [groupBy_concat, keys_push]
    split
    · exact ih
    · rename_i h
      exact List.nodup_append.2 ⟨ih, by simp, by
        rintro a ha b hb rfl
        exact h (by simpa [List.mem_singleton.1 hb] using ha)⟩

theorem mem_keys {rows : List α} {k : κ} :
    k ∈ (groupBy key rows).map Prod.fst ↔ ∃ row ∈ rows, key row = k := by
  induction rows using List.reverseRecOn with
  | nil => simp [groupBy]
  | append_singleton rows row ih =>
    rw [groupBy_concat, mem_keys_push, ih]
    constructor
    · rintro (rfl | ⟨r, hr, hk⟩)
      · exact ⟨row, by simp, rfl⟩
      · exact ⟨r, by simp [hr], hk⟩
    · rintro ⟨r, hr, hk⟩
      rcases List.mem_append.1 hr with hr | hr
      · exact .inr ⟨r, hr, hk⟩
      · rw [List.mem_singleton.1 hr] at hk
        exact .inl hk.symm

/-- The groups are the keys that occur, each with its rows. -/
theorem mem_groupBy {rows group : List α} {k : κ} :
    (k, group) ∈ groupBy key rows ↔ group ≠ [] ∧ group = rows.filter fun row => key row = k := by
  have hn := nodup_keys key rows
  have hat : ∀ g, (k, g) ∈ groupBy key rows → rowsAt (groupBy key rows) k = g := fun g hg => by
    obtain ⟨x, hx⟩ : ∃ x, (groupBy key rows).find? (fun group => group.1 = k) = some x :=
      Option.isSome_iff_exists.1 (List.find?_isSome.2 ⟨_, hg, by simp⟩)
    have hk : x.1 = k := by simpa using List.find?_some hx
    have : x = (k, g) := List.inj_on_of_nodup_map hn (List.mem_of_find?_eq_some hx) hg hk
    simp [rowsAt, hx, this]
  constructor
  · intro h
    have hg := hat group h
    rw [rowsAt_groupBy] at hg
    refine ⟨?_, hg.symm⟩
    obtain ⟨row, hrow, hk⟩ := (mem_keys key).1 (List.mem_map.2 ⟨_, h, rfl⟩)
    exact List.ne_nil_of_mem (hg ▸ List.mem_filter.2 ⟨hrow, by simpa using hk⟩ : row ∈ group)
  · rintro ⟨hne, rfl⟩
    obtain ⟨row, hrow⟩ := List.exists_mem_of_ne_nil _ hne
    obtain ⟨hrow, hk⟩ := List.mem_filter.1 hrow
    obtain ⟨⟨k', g⟩, hg, rfl⟩ := List.mem_map.1 ((mem_keys key).2 ⟨row, hrow, by simpa using hk⟩)
    have := hat g hg
    rw [rowsAt_groupBy] at this
    rwa [this]

end

end Groups
