import Mathlib

/-!
# Rows in another order

`Shuffle R l l'`: the rows of `l` in some order, each replaced by one `R` relates it to. With `R` a
reordering inside the row, this is a table whose rows, and whose parts of rows, come in another order.
-/

/-- `l'` is a reordering of `l` up to `R` in each row. -/
def Shuffle {α : Type*} (R : α → α → Prop) (l l' : List α) : Prop := ∃ m, l.Perm m ∧ List.Forall₂ R m l'

namespace Shuffle

variable {α β : Type*} {R : α → α → Prop} {l l' : List α}

theorem of_perm (hr : ∀ a, R a a) (h : l.Perm l') : Shuffle R l l' :=
  ⟨l', h, List.forall₂_same.2 fun a _ => hr a⟩

/-- What is read off each row up to order is read off the table up to order. -/
theorem flatMap_perm {f : α → List β} (hf : ∀ {a b}, R a b → (f a).Perm (f b)) (h : Shuffle R l l') :
    (l.flatMap f).Perm (l'.flatMap f) := by
  obtain ⟨m, hp, hm⟩ := h
  refine (hp.flatMap_right f).trans ?_
  clear hp
  induction hm with
  | nil => exact List.Perm.refl _
  | cons hr _ ih => exact (hf hr).append ih

/-- What is read off some rows whatever their inner order is read off the table up to order. -/
theorem map_filter_perm {p : α → Bool} {f : α → β} (hp : ∀ {a b}, R a b → p a = p b)
    (hf : ∀ {a b}, R a b → f a = f b) (h : Shuffle R l l') :
    ((l.filter p).map f).Perm ((l'.filter p).map f) := by
  obtain ⟨m, hperm, hm⟩ := h
  refine ((hperm.filter p).map f).trans (List.Perm.of_eq ?_)
  clear hperm
  induction hm with
  | nil => rfl
  | @cons a b as bs hr _ ih =>
    by_cases ha : p a = true
    · rw [List.filter_cons_of_pos ha, List.filter_cons_of_pos (hp hr ▸ ha), List.map_cons,
        List.map_cons, hf hr, ih]
    · rw [List.filter_cons_of_neg ha, List.filter_cons_of_neg (hp hr ▸ ha), ih]

theorem map_perm {f : α → β} (hf : ∀ {a b}, R a b → f a = f b) (h : Shuffle R l l') :
    (l.map f).Perm (l'.map f) := by
  have := map_filter_perm (R := R) (p := fun _ => true) (fun _ => rfl) hf h
  simpa using this

end Shuffle
