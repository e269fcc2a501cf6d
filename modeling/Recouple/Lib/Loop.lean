import Mathlib

/-!
# Loops that may not stop

One turn of a loop gives the next state or the loop's result; `Stops body s r` says that the loop
started in `s` stops with `r`. An invariant holds at the turn that stops it (`Stops.inv`), a measure
that every turn makes smaller stops it (`stops_of_measure`), and a set of states that no turn leaves
keeps it going (`not_stops`).
-/

namespace Loop

variable {σ ρ : Type*} {body : σ → σ ⊕ ρ} {I : σ → Prop} {s : σ} {r : ρ}

/-- The loop started in `s` stops with `r`. -/
inductive Stops (body : σ → σ ⊕ ρ) : σ → ρ → Prop
  | last {s : σ} {r : ρ} : body s = .inr r → Stops body s r
  | turn {s s' : σ} {r : ρ} : body s = .inl s' → Stops body s' r → Stops body s r

/-- What every turn keeps holds at the turn that gives the result. -/
theorem Stops.inv (h : Stops body s r) (step : ∀ {s s'}, I s → body s = .inl s' → I s') (hs : I s) :
    ∃ t, I t ∧ body t = .inr r := by
  induction h with
  | last hr => exact ⟨_, hs, hr⟩
  | turn hbody _ ih => exact ih (step hs hbody)

/-- A loop stops where every turn makes a measure smaller. -/
theorem stops_of_measure {α : Type*} [Preorder α] [WellFoundedLT α] (m : σ → α)
    (step : ∀ {s s'}, I s → body s = .inl s' → I s' ∧ m s' < m s) (hs : I s) : ∃ r, Stops body s r := by
  induction hm : m s using WellFoundedLT.induction generalizing s with
  | ind a ih =>
    cases hb : body s with
    | inr r => exact ⟨r, .last hb⟩
    | inl s' =>
      obtain ⟨hs', hlt⟩ := step hs hb
      obtain ⟨r, hr⟩ := ih (m s') (hm ▸ hlt) hs' rfl
      exact ⟨r, .turn hb hr⟩

/-- States that every turn leads back among are never left. -/
theorem not_stops (step : ∀ s, I s → ∃ s', body s = .inl s' ∧ I s') (hs : I s) : ¬ Stops body s r := by
  intro h
  obtain ⟨t, ht, hr⟩ := h.inv (I := I) (fun {s s'} hs hb => by
    obtain ⟨t, hb', ht⟩ := step s hs
    rw [hb] at hb'
    cases hb'
    exact ht) hs
  obtain ⟨_, hb, -⟩ := step t ht
  rw [hr] at hb
  cases hb

end Loop
