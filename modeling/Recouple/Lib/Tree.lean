import Mathlib

/-!
# Trees of arrays and objects

An object is the list of its properties in insertion order, as ECMAScript keeps it: setting a property that
is there leaves it in its place, and a new one comes last (`put`). `get_put` is all that a reader of the
object sees of that.

A tree is compared by what its paths lead to (`Same`), so the order of an object's properties is no part of
what it is.
-/

namespace JsonTree

/-! ## Objects -/

section
variable {κ α : Type} [DecidableEq κ]

/-- `object[k]` -/
def get : List (κ × α) → κ → Option α
  | [], _ => none
  | (k', v) :: rest, k => if k' = k then some v else get rest k

/-- `object[k] = v` -/
def put (k : κ) (v : α) : List (κ × α) → List (κ × α)
  | [] => [(k, v)]
  | (k', v') :: rest => if k' = k then (k, v) :: rest else (k', v') :: put k v rest

@[simp] theorem get_nil (k : κ) : get ([] : List (κ × α)) k = none := rfl

theorem get_put (k k' : κ) (v : α) (o : List (κ × α)) :
    get (put k v o) k' = if k = k' then some v else get o k' := by
  induction o with
  | nil => rfl
  | cons e o ih =>
    obtain ⟨k₀, v₀⟩ := e
    by_cases h : k₀ = k
    · subst h
      rw [put, if_pos rfl]
      by_cases hk : k₀ = k' <;> simp [get, hk]
    · rw [put, if_neg h, get, ih, get]
      by_cases hk : k₀ = k'
      · subst hk
        simp [Ne.symm h]
      · simp [hk]

@[simp] theorem get_put_self (k : κ) (v : α) (o : List (κ × α)) : get (put k v o) k = some v := by
  rw [get_put, if_pos rfl]

theorem get_put_of_ne {k k' : κ} (h : k ≠ k') (v : α) (o : List (κ × α)) : get (put k v o) k' = get o k' := by
  rw [get_put, if_neg h]

theorem mem_put {k : κ} {v : α} {e : κ × α} {o : List (κ × α)} (h : e ∈ put k v o) : e = (k, v) ∨ e ∈ o := by
  induction o with
  | nil => exact .inl (List.mem_singleton.1 h)
  | cons e' o ih =>
    obtain ⟨k₀, v₀⟩ := e'
    rw [put] at h
    split at h
    · rcases List.mem_cons.1 h with rfl | h
      · exact .inl rfl
      · exact .inr (List.mem_cons_of_mem _ h)
    · rcases List.mem_cons.1 h with rfl | h
      · exact .inr List.mem_cons_self
      · exact (ih h).imp_right (List.mem_cons_of_mem _)

theorem mem_keys_put {k k' : κ} {v : α} {o : List (κ × α)} (h : k' ∈ (put k v o).map Prod.fst) :
    k' = k ∨ k' ∈ o.map Prod.fst := by
  obtain ⟨e, he, rfl⟩ := List.mem_map.1 h
  rcases mem_put he with rfl | he
  · exact .inl rfl
  · exact .inr (List.mem_map_of_mem he)

theorem nodup_put {k : κ} {v : α} {o : List (κ × α)} (h : (o.map Prod.fst).Nodup) :
    ((put k v o).map Prod.fst).Nodup := by
  induction o with
  | nil => simp [put]
  | cons e o ih =>
    obtain ⟨k₀, v₀⟩ := e
    rw [List.map_cons, List.nodup_cons] at h
    rw [put]
    split
    · rename_i heq
      subst heq
      simpa using h
    · rename_i hne
      rw [List.map_cons, List.nodup_cons]
      refine ⟨fun hmem => ?_, ih h.2⟩
      rcases mem_keys_put hmem with heq | hmem
      · exact hne heq
      · exact h.1 hmem

/-- Where no property comes twice, the properties are what can be read. -/
theorem mem_iff_get {o : List (κ × α)} (h : (o.map Prod.fst).Nodup) {k : κ} {v : α} :
    (k, v) ∈ o ↔ get o k = some v := by
  induction o with
  | nil => simp
  | cons e o ih =>
    obtain ⟨k₀, v₀⟩ := e
    rw [List.map_cons, List.nodup_cons] at h
    rw [List.mem_cons, get, Prod.mk.injEq]
    by_cases hk : k₀ = k
    · subst hk
      have hnot : (k₀, v) ∉ o := fun hm => h.1 (List.mem_map.2 ⟨(k₀, v), hm, rfl⟩)
      simp [hnot, eq_comm]
    · rw [if_neg hk, ← ih h.2]
      simp [Ne.symm hk]

end

/-! ## Trees -/

inductive Node (κ α : Type)
  | leaf (a : α)
  | array (items : List (Node κ α))
  | object (entries : List (κ × Node κ α))

inductive Step (κ : Type)
  | key (k : κ)
  | index (i : Nat)
deriving DecidableEq

/-- What stands at the end of a path. -/
inductive Shape (α : Type)
  | leaf (a : α)
  | array (length : Nat)
  | object
deriving DecidableEq

namespace Node
variable {κ α : Type} [DecidableEq κ]

def find : List (Step κ) → Node κ α → Option (Shape α)
  | [], .leaf a => some (.leaf a)
  | [], .array items => some (.array items.length)
  | [], .object _ => some .object
  | .key k :: rest, .object entries => (get entries k).bind (find rest)
  | .index i :: rest, .array items => items[i]?.bind (find rest)
  | _ :: _, _ => none

/-- Two trees are the same where every path leads to the same. -/
def Same (a b : Node κ α) : Prop := ∀ steps, a.find steps = b.find steps

/-- The properties of an object; none of anything else. -/
def entriesOf : Option (Node κ α) → List (κ × Node κ α)
  | some (.object entries) => entries
  | _ => []

/-- The items of an array; none of anything else. -/
def itemsOf : Option (Node κ α) → List (Node κ α)
  | some (.array items) => items
  | _ => []

/-- No object of the tree has a property twice. -/
inductive Distinct : Node κ α → Prop
  | leaf (a : α) : Distinct (.leaf a)
  | array {items : List (Node κ α)} (h : ∀ n ∈ items, Distinct n) : Distinct (.array items)
  | object {entries : List (κ × Node κ α)} (hk : (entries.map Prod.fst).Nodup) (h : ∀ e ∈ entries, Distinct e.2) :
      Distinct (.object entries)

@[simp] theorem find_leaf (a : α) (steps : List (Step κ)) :
    (leaf a : Node κ α).find steps = if steps = [] then some (.leaf a) else none := by
  cases steps with
  | nil => rfl
  | cons s rest => cases s <;> rfl

@[simp] theorem find_object_key (entries : List (κ × Node κ α)) (k : κ) (rest : List (Step κ)) :
    (object entries).find (.key k :: rest) = (get entries k).bind (find rest) := rfl

@[simp] theorem find_array_index (items : List (Node κ α)) (i : Nat) (rest : List (Step κ)) :
    (array items).find (.index i :: rest) = items[i]?.bind (find rest) := rfl

@[simp] theorem find_object_index (entries : List (κ × Node κ α)) (i : Nat) (rest : List (Step κ)) :
    (object entries).find (.index i :: rest) = none := rfl

@[simp] theorem find_array_key (items : List (Node κ α)) (k : κ) (rest : List (Step κ)) :
    (array items).find (.key k :: rest) = none := rfl

end Node

end JsonTree
