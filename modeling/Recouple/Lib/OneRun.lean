import Mathlib

/-!
# Elements that stand together

`OneRun p l` says that the elements of `l` with `p` are one run; `Between p r l` that what stands between two elements
with `p` has `r`.

* `OneRun.between`, `Between.oneRun`: one run is what has nothing else between two of its elements.
* `OneRun.of_filter`, `Between.pad`: what is left out of a run, and what is put around it.
-/

namespace Runs

variable {α : Type*} {p r : α → Prop}

def OneRun (p : α → Prop) (l : List α) : Prop :=
  ∃ before run after, l = before ++ run ++ after ∧ (∀ x ∈ before, ¬ p x) ∧ (∀ x ∈ run, p x) ∧ ∀ x ∈ after, ¬ p x

def Between (p r : α → Prop) (l : List α) : Prop :=
  ∀ before x after, l = before ++ x :: after → (∃ y ∈ before, p y) → (∃ y ∈ after, p y) → r x

theorem Between.mono {s : α → Prop} {l : List α} (h : Between p r l) (hrs : ∀ x, r x → s x) : Between p s l :=
  fun before x after hl hbefore hafter => hrs x (h before x after hl hbefore hafter)

/-- Elements without `p` may stand around. -/
theorem Between.pad {l : List α} (h : Between p r l) {lead tail : List α} (hlead : ∀ x ∈ lead, ¬ p x)
    (htail : ∀ x ∈ tail, ¬ p x) : Between p r (lead ++ l ++ tail) := by
  rintro before x after hl ⟨y, hy, hpy⟩ ⟨z, hz, hpz⟩
  rw [List.append_assoc, List.append_eq_append_iff] at hl
  rcases hl with ⟨rest, rfl, hrest⟩ | ⟨rest, rfl, -⟩
  · rw [List.append_eq_append_iff] at hrest
    have hy' : y ∈ rest := (List.mem_append.1 hy).resolve_left fun hmem => hlead y hmem hpy
    rcases hrest with ⟨rest', rfl, rfl⟩ | ⟨rest', rfl, hrest⟩
    · exact absurd hpz (htail z (List.mem_append_right _ (List.mem_cons_of_mem _ hz)))
    · cases rest' with
      | nil =>
        rw [List.nil_append] at hrest
        exact absurd hpz (htail z (hrest ▸ List.mem_cons_of_mem _ hz))
      | cons w rest' =>
        obtain ⟨rfl, rfl⟩ := List.cons.inj hrest
        have hz' : z ∈ rest' := (List.mem_append.1 hz).resolve_right fun hmem => htail z hmem hpz
        exact h rest x rest' rfl ⟨y, hy', hpy⟩ ⟨z, hz', hpz⟩
  · exact absurd hpy (hlead y (List.mem_append_left _ hy))

theorem OneRun.between {l : List α} (h : OneRun p l) : Between p p l := by
  obtain ⟨lead, run, tail, rfl, hlead, hrun, htail⟩ := h
  refine Between.pad ?_ hlead htail
  rintro before x after rfl - -
  exact hrun x (List.mem_append_right _ List.mem_cons_self)

theorem Between.oneRun : ∀ {l : List α}, Between p p l → OneRun p l
  | [], _ => ⟨[], [], [], rfl, by simp, by simp, by simp⟩
  | x :: l, h => by
    obtain ⟨lead, run, tail, rfl, hlead, hrun, htail⟩ : OneRun p l := by
      refine Between.oneRun fun before y after hl hbefore => h (x :: before) y after (by rw [hl]; rfl) ?_
      obtain ⟨z, hz, hpz⟩ := hbefore
      exact ⟨z, List.mem_cons_of_mem _ hz, hpz⟩
    by_cases hx : p x
    · cases run with
      | nil =>
        refine ⟨[], [x], lead ++ tail, by simp, by simp, by simpa using hx, fun y hy => ?_⟩
        exact (List.mem_append.1 hy).elim (hlead y) (htail y)
      | cons z run =>
        cases lead with
        | nil => exact ⟨[], x :: z :: run, tail, rfl, by simp, List.forall_mem_cons.2 ⟨hx, hrun⟩, htail⟩
        | cons y lead =>
          -- `y` stands between `x` and `z`
          have hz : ∃ w ∈ lead ++ z :: run ++ tail, p w := ⟨z, by simp, hrun z List.mem_cons_self⟩
          exact absurd (h [x] y (lead ++ z :: run ++ tail) rfl ⟨x, by simp, hx⟩ hz) (hlead y List.mem_cons_self)
    · exact ⟨x :: lead, run, tail, rfl, List.forall_mem_cons.2 ⟨hx, hlead⟩, hrun, htail⟩

/-- Between two elements of a run stand others of it, and what the filter left out. -/
theorem OneRun.of_filter {l : List α} {q : α → Bool} (hq : ∀ x, p x → q x = true) (h : OneRun p (l.filter q)) :
    Between p (fun x => p x ∨ q x = false) l := by
  rintro before x after hl ⟨y, hy, hpy⟩ ⟨z, hz, hpz⟩
  by_cases hx : q x = true
  · have hfilter : l.filter q = before.filter q ++ x :: after.filter q := by
      rw [hl, List.filter_append, List.filter_cons_of_pos hx]
    exact .inl (h.between _ _ _ hfilter ⟨y, List.mem_filter.2 ⟨hy, hq y hpy⟩, hpy⟩
      ⟨z, List.mem_filter.2 ⟨hz, hq z hpz⟩, hpz⟩)
  · exact .inr (Bool.eq_false_iff.2 hx)

end Runs
