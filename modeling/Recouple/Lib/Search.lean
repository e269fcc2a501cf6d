import Mathlib

/-!
# Breadth-first search

`search` walks the nodes of a graph with a queue and a set of nodes seen, and stops at the goal. With a turn for every
node, it finds the goal exactly where a path leads to it that enters no avoided node on the way (`search_iff`).
-/

namespace Search

variable {α : Type} [DecidableEq α]

/-- One node's neighbours: `none` when the goal is among them, else what is seen and queued after them. -/
def visit (goal : α) (avoid : List α) : List α → List α → List α → Option (List α × List α)
  | [], seen, queue => some (seen, queue)
  | y :: ys, seen, queue =>
    if y = goal then none
    else if y ∈ avoid ∨ y ∈ seen then visit goal avoid ys seen queue
    else visit goal avoid ys (y :: seen) (queue ++ [y])

/-- The loop, for a number of turns. -/
def search (next : α → List α) (goal : α) (avoid : List α) : Nat → List α → List α → Bool
  | 0, _, _ => false
  | _ + 1, _, [] => false
  | n + 1, seen, x :: queue =>
    match visit goal avoid (next x) seen queue with
    | none => true
    | some (seen, queue) => search next goal avoid n seen queue

/-- One step to a node that is not avoided. -/
def Step (next : α → List α) (avoid : List α) (x y : α) : Prop := y ∈ next x ∧ y ∉ avoid

/-- A path of one step or more leads to the goal, and enters no avoided node before it. -/
def Leads (next : α → List α) (avoid : List α) (x goal : α) : Prop :=
  ∃ y, Relation.ReflTransGen (Step next avoid) x y ∧ goal ∈ next y

section
variable {next : α → List α} {goal : α} {avoid : List α}

theorem visit_none {ys seen queue : List α} : visit goal avoid ys seen queue = none ↔ goal ∈ ys := by
  induction ys generalizing seen queue with
  | nil => simp [visit]
  | cons y ys ih =>
    rw [visit, List.mem_cons]
    by_cases hy : y = goal
    · rw [if_pos hy]
      exact iff_of_true rfl (.inl hy.symm)
    · rw [if_neg hy]
      split
      · rw [ih]
        exact ⟨.inr, fun h => h.resolve_left fun h => hy h.symm⟩
      · rw [ih]
        exact ⟨.inr, fun h => h.resolve_left fun h => hy h.symm⟩

/-- What a visit adds: the neighbours neither avoided nor seen, once each, to both lists. -/
theorem visit_some {ys seen queue seen' queue' : List α} (h : visit goal avoid ys seen queue = some (seen', queue')) :
    ∃ new, seen' = new.reverse ++ seen ∧ queue' = queue ++ new ∧ new.Nodup ∧
      ∀ y, y ∈ new ↔ y ∈ ys ∧ y ∉ avoid ∧ y ∉ seen := by
  induction ys generalizing seen queue with
  | nil =>
    cases h
    exact ⟨[], rfl, (List.append_nil _).symm, .nil, fun y => by simp⟩
  | cons y ys ih =>
    rw [visit] at h
    by_cases hy : y = goal
    · rw [if_pos hy] at h
      cases h
    · rw [if_neg hy] at h
      by_cases hold : y ∈ avoid ∨ y ∈ seen
      · rw [if_pos hold] at h
        obtain ⟨new, hseen, hqueue, hnodup, hmem⟩ := ih h
        refine ⟨new, hseen, hqueue, hnodup, fun z => ?_⟩
        rw [hmem, List.mem_cons]
        constructor
        · rintro ⟨hz, hrest⟩
          exact ⟨.inr hz, hrest⟩
        · rintro ⟨rfl | hz, havoid, hnot⟩
          · exact absurd hold (not_or.2 ⟨havoid, hnot⟩)
          · exact ⟨hz, havoid, hnot⟩
      · rw [if_neg hold] at h
        obtain ⟨new, hseen, hqueue, hnodup, hmem⟩ := ih h
        have hyold := not_or.1 hold
        refine ⟨y :: new, ?_, ?_, List.nodup_cons.2 ⟨fun h => ((hmem y).1 h).2.2 List.mem_cons_self, hnodup⟩, fun z => ?_⟩
        · rw [hseen, List.reverse_cons, List.append_assoc, List.singleton_append]
        · rw [hqueue, List.append_assoc, List.singleton_append]
        · rw [List.mem_cons, hmem, List.mem_cons, List.mem_cons]
          constructor
          · rintro (rfl | ⟨hz, havoid, hnot⟩)
            · exact ⟨.inl rfl, hyold⟩
            · exact ⟨.inr hz, havoid, fun h => hnot (.inr h)⟩
          · rintro ⟨rfl | hz, havoid, hnot⟩
            · exact .inl rfl
            · by_cases hzy : z = y
              · exact .inl hzy
              · exact .inr ⟨hz, havoid, not_or.2 ⟨hzy, hnot⟩⟩

/-- A search that answers yes has found a path. -/
theorem leads_of_search {x : α} : ∀ {n : Nat} {seen queue : List α},
    (∀ y ∈ queue, Relation.ReflTransGen (Step next avoid) x y) → search next goal avoid n seen queue = true →
    Leads next avoid x goal
  | 0, _, _, _, h => by cases h
  | _ + 1, _, [], _, h => by cases h
  | n + 1, seen, y :: queue, hqueue, h => by
    rw [search] at h
    have hy := hqueue y List.mem_cons_self
    cases hvisit : visit goal avoid (next y) seen queue with
    | none => exact ⟨y, hy, visit_none.1 hvisit⟩
    | some r =>
      rw [hvisit] at h
      obtain ⟨new, -, hqueue', -, hmem⟩ := visit_some hvisit
      refine leads_of_search (fun z hz => ?_) h
      rw [hqueue'] at hz
      rcases List.mem_append.1 hz with hz | hz
      · exact hqueue z (List.mem_cons_of_mem _ hz)
      · obtain ⟨hnext, havoid, -⟩ := (hmem z).1 hz
        exact hy.tail ⟨hnext, havoid⟩

/-- Every node seen is queued, or has neighbours that are seen or avoided and are not the goal. -/
def Walked (next : α → List α) (goal : α) (avoid seen queue : List α) : Prop :=
  ∀ x ∈ seen, x ∈ queue ∨ (goal ∉ next x ∧ ∀ y ∈ next x, y ∈ avoid ∨ y ∈ seen)

/-- With a turn for every node of the graph, a search that answers no has walked all it can. -/
theorem walked_of_search {nodes : List α} (hnodes : ∀ x y, y ∈ next x → y ∈ nodes) : ∀ {n : Nat} {seen queue : List α},
    seen.Nodup → (∀ x ∈ seen, x ∈ nodes) → nodes.length - seen.length + queue.length < n →
    Walked next goal avoid seen queue → search next goal avoid n seen queue = false →
    ∃ seen', (∀ x ∈ seen, x ∈ seen') ∧ Walked next goal avoid seen' []
  | 0, _, _, _, _, hn, _, _ => absurd hn (Nat.not_lt_zero _)
  | _ + 1, seen, [], _, _, _, hwalked, _ => ⟨seen, fun _ h => h, hwalked⟩
  | n + 1, seen, y :: queue, hnodup, hsub, hn, hwalked, h => by
    rw [search] at h
    cases hvisit : visit goal avoid (next y) seen queue with
    | none =>
      rw [hvisit] at h
      cases h
    | some r =>
      rw [hvisit] at h
      obtain ⟨new, hseen, hqueue, hnew, hmem⟩ := visit_some hvisit
      have hgoal : goal ∉ next y := fun hy => by
        rw [visit_none.2 hy] at hvisit
        cases hvisit
      have hnodup' : r.1.Nodup := by
        rw [hseen, List.nodup_append]
        refine ⟨List.nodup_reverse.2 hnew, hnodup, fun a ha b hb => ?_⟩
        rintro rfl
        exact ((hmem a).1 (List.mem_reverse.1 ha)).2.2 hb
      have hsub' : ∀ x ∈ r.1, x ∈ nodes := by
        intro x hx
        rw [hseen] at hx
        rcases List.mem_append.1 hx with hx | hx
        · exact hnodes y x ((hmem x).1 (List.mem_reverse.1 hx)).1
        · exact hsub x hx
      have hroom : r.1.length ≤ nodes.length := (hnodup'.subperm hsub').length_le
      have hwalked' : Walked next goal avoid r.1 r.2 := by
        intro x hx
        rw [hseen] at hx
        rcases List.mem_append.1 hx with hx | hx
        · rw [hqueue]
          exact .inl (List.mem_append_right _ (List.mem_reverse.1 hx))
        · rcases hwalked x hx with hx' | ⟨hxgoal, hxnext⟩
          · rcases List.mem_cons.1 hx' with rfl | hx'
            · refine .inr ⟨hgoal, fun z hz => ?_⟩
              by_cases hold : z ∈ avoid ∨ z ∈ seen
              · exact hold.imp_right fun h => hseen ▸ List.mem_append_right _ h
              · refine .inr (hseen ▸ List.mem_append_left _ (List.mem_reverse.2 ((hmem z).2 ⟨hz, not_or.1 hold⟩)))
            · rw [hqueue]
              exact .inl (List.mem_append_left _ hx')
          · exact .inr ⟨hxgoal, fun z hz => (hxnext z hz).imp_right fun h => hseen ▸ List.mem_append_right _ h⟩
      have hn' : nodes.length - r.1.length + r.2.length < n := by
        have hlength : r.1.length = new.length + seen.length := by rw [hseen, List.length_append, List.length_reverse]
        have hlength' : r.2.length = queue.length + new.length := by rw [hqueue, List.length_append]
        rw [List.length_cons] at hn
        omega
      obtain ⟨seen', hgrow, hdone⟩ := walked_of_search hnodes hnodup' hsub' hn' hwalked' h
      exact ⟨seen', fun x hx => hgrow x (hseen ▸ List.mem_append_right _ hx), hdone⟩

/-- **The search finds the goal exactly where a path leads to it.** -/
theorem search_iff {nodes : List α} {x : α} {n : Nat} (hnodes : ∀ x y, y ∈ next x → y ∈ nodes) (hx : x ∈ nodes)
    (hn : nodes.length < n) : search next goal avoid n [x] [x] = true ↔ Leads next avoid x goal := by
  constructor
  · refine leads_of_search fun y hy => ?_
    rw [List.mem_singleton.1 hy]
  · rintro ⟨y, hpath, hgoal⟩
    by_contra hno
    rw [Bool.not_eq_true] at hno
    have hpos : 0 < nodes.length := List.length_pos_of_mem hx
    obtain ⟨seen, hgrow, hwalked⟩ := walked_of_search hnodes (List.nodup_singleton x)
      (fun z hz => List.mem_singleton.1 hz ▸ hx) (by simp only [List.length_singleton]; omega)
      (fun z hz => .inl hz) hno
    have hclosed : ∀ z, Relation.ReflTransGen (Step next avoid) x z → z ∈ seen := by
      intro z hz
      induction hz with
      | refl => exact hgrow x (List.mem_singleton_self x)
      | tail _ hstep ih =>
        obtain ⟨-, hnext⟩ := (hwalked _ ih).resolve_left List.not_mem_nil
        exact (hnext _ hstep.1).resolve_left hstep.2
    exact ((hwalked y (hclosed y hpath)).resolve_left List.not_mem_nil).1 hgoal

end

end Search
