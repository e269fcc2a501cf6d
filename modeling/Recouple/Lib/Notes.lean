import Mathlib

/-!
# Comparing with notes

A comparison notes each difference and goes on; what it cannot read stops it. `Clean` says that it came to its end and
noted nothing, `Throws` what it may stop with.
-/

/-- A run that notes differences, and may stop. -/
structure Noted (ν ε α : Type) where
  notes : List ν
  result : Except ε α

namespace Noted
variable {ν ε α β : Type}

instance : Monad (Noted ν ε) where
  pure a := ⟨[], .ok a⟩
  bind x f :=
    match x.result with
    | .ok a => ⟨x.notes ++ (f a).notes, (f a).result⟩
    | .error e => ⟨x.notes, .error e⟩

/-- Notes `what`, unless all is well. -/
def check (what : ν) (ok : Bool) : Noted ν ε Unit := ⟨if ok then [] else [what], .ok ()⟩

/-- Pure code that may throw. -/
def lift (r : Except ε α) : Noted ν ε α := ⟨[], r⟩

/-- The run comes to its end with `a`, and notes nothing. -/
def Clean (x : Noted ν ε α) (a : α) : Prop := x.notes = [] ∧ x.result = .ok a

/-- Whatever the run throws is such. -/
def Throws (P : ε → Prop) (x : Noted ν ε α) : Prop := ∀ e, x.result = .error e → P e

section
variable {x : Noted ν ε α} {f : α → Noted ν ε β} {a : α} {b : β} {what : ν} {ok : Bool} {r : Except ε α} {P : ε → Prop}

@[simp] theorem clean_pure {a' : α} : Clean (pure a' : Noted ν ε α) a ↔ a' = a := by
  unfold Clean
  exact ⟨fun h => Except.ok.inj h.2, fun h => ⟨rfl, congrArg _ h⟩⟩

@[simp] theorem clean_check {u : Unit} : Clean (check what ok : Noted ν ε Unit) u ↔ ok = true := by
  unfold Clean check
  cases ok <;> simp

@[simp] theorem clean_lift : Clean (lift r : Noted ν ε α) a ↔ r = .ok a := by
  unfold Clean lift
  simp

theorem clean_bind : Clean (x >>= f) b ↔ ∃ a, Clean x a ∧ Clean (f a) b := by
  obtain ⟨notes, result⟩ := x
  cases result with
  | ok a =>
    change (notes ++ (f a).notes = [] ∧ (f a).result = .ok b) ↔ _
    rw [List.append_eq_nil_iff]
    constructor
    · rintro ⟨⟨hnotes, hrest⟩, hresult⟩
      exact ⟨a, ⟨hnotes, rfl⟩, hrest, hresult⟩
    · rintro ⟨a', ⟨hnotes, ha⟩, hrest, hresult⟩
      obtain rfl := Except.ok.inj ha
      exact ⟨⟨hnotes, hrest⟩, hresult⟩
  | error e =>
    constructor
    · rintro ⟨-, h⟩
      cases h
    · rintro ⟨a, ⟨-, h⟩, -⟩
      cases h

theorem clean_check_bind {f : Unit → Noted ν ε β} : Clean (check what ok >>= f) b ↔ ok = true ∧ Clean (f ()) b := by
  rw [clean_bind]
  exact ⟨fun ⟨_, h, hf⟩ => ⟨clean_check.1 h, hf⟩, fun ⟨h, hf⟩ => ⟨(), clean_check.2 h, hf⟩⟩

theorem clean_lift_bind : Clean (lift r >>= f) b ↔ ∃ a, r = .ok a ∧ Clean (f a) b := by
  rw [clean_bind]
  exact exists_congr fun a => and_congr_left fun _ => clean_lift

theorem clean_forM {f : α → Noted ν ε Unit} {l : List α} {u : Unit} : Clean (forM l f) u ↔ ∀ a ∈ l, Clean (f a) () := by
  induction l with
  | nil =>
    rw [List.forM_nil, clean_pure]
    exact iff_of_true rfl fun _ h => absurd h List.not_mem_nil
  | cons a l ih =>
    rw [List.forM_cons, clean_bind, List.forall_mem_cons]
    constructor
    · rintro ⟨_, ha, hl⟩
      exact ⟨ha, ih.1 hl⟩
    · rintro ⟨ha, hl⟩
      exact ⟨(), ha, ih.2 hl⟩

theorem throws_pure : Throws P (pure a : Noted ν ε α) := by
  rintro e ⟨⟩

theorem throws_check : Throws P (check what ok : Noted ν ε Unit) := by
  rintro e ⟨⟩

theorem throws_lift (h : ∀ e, r = .error e → P e) : Throws P (lift r : Noted ν ε α) := h

theorem Throws.bind (hx : Throws P x) (hf : ∀ a, Throws P (f a)) : Throws P (x >>= f) := by
  obtain ⟨notes, result⟩ := x
  cases result with
  | ok a => exact hf a
  | error e => exact fun e' he => hx e' (congrArg Except.error (Except.error.inj he))

theorem throws_forM {f : α → Noted ν ε Unit} {l : List α} (h : ∀ a ∈ l, Throws P (f a)) : Throws P (forM l f) := by
  induction l with
  | nil => exact throws_pure
  | cons a l ih =>
    rw [List.forall_mem_cons] at h
    rw [List.forM_cons]
    exact h.1.bind fun _ => ih h.2

end

end Noted
