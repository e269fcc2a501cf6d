import Mathlib

/-!
# Calls that check before they write

A call is a program of `EStateM`: where it throws, the writes it made before stay. `Checks` says a program only
reads, `Whole` that it leaves the state alone where it throws: every check comes before the first write, or the
program is a transaction.
-/

namespace Guarded
variable {ε σ α β : Type}

/-- Goes on only where `p` holds. -/
def require (p : Prop) [Decidable p] (e : ε) : EStateM ε σ Unit := if p then pure () else throw e

/-- Goes on with the value. -/
def found (o : Option α) (e : ε) : EStateM ε σ α :=
  match o with
  | some a => pure a
  | none => throw e

/-- Goes on only where there is nothing. -/
def absent (o : Option α) (e : α → ε) : EStateM ε σ Unit :=
  match o with
  | some a => throw (e a)
  | none => pure ()

/-- Pure code that may throw. -/
def lift (r : Except ε α) : EStateM ε σ α :=
  match r with
  | .ok a => pure a
  | .error e => throw e

/-- Commits where the body returns and rolls back where it throws. -/
def transaction (body : EStateM ε σ α) : EStateM ε σ α := fun s =>
  match body s with
  | .ok a s' => .ok a s'
  | .error e _ => .error e s

/-! ## Where a call returns -/

section
variable {x : EStateM ε σ α} {f : α → EStateM ε σ β} {s s' s'' : σ} {a : α} {b : β} {u : Unit} {e : ε}

theorem bind_apply (x : EStateM ε σ α) (f : α → EStateM ε σ β) (s : σ) :
    (x >>= f) s = match x s with
      | .ok a s' => f a s'
      | .error e s' => .error e s' := rfl

theorem bind_ok : (x >>= f) s = .ok b s'' ↔ ∃ a s', x s = .ok a s' ∧ f a s' = .ok b s'' := by
  rw [bind_apply]
  cases x s <;> simp

@[simp] theorem pure_ok {b : α} : (pure a : EStateM ε σ α) s = .ok b s' ↔ a = b ∧ s = s' := by
  show EStateM.Result.ok a s = .ok b s' ↔ _
  simp

@[simp] theorem throw_ok : (throw e : EStateM ε σ α) s = .ok a s' ↔ False := by
  show EStateM.Result.error e s = .ok a s' ↔ _
  simp

@[simp] theorem get_ok : (get : EStateM ε σ σ) s = .ok s'' s' ↔ s = s'' ∧ s = s' := by
  show EStateM.Result.ok s s = .ok s'' s' ↔ _
  simp

@[simp] theorem modify_ok {g : σ → σ} : (modify g : EStateM ε σ Unit) s = .ok u s' ↔ s' = g s := by
  show EStateM.Result.ok ⟨⟩ (g s) = .ok u s' ↔ _
  simp [eq_comm]

@[simp] theorem require_ok {p : Prop} [Decidable p] :
    (require p e : EStateM ε σ Unit) s = .ok u s' ↔ p ∧ s = s' := by
  unfold require
  split
  · simp [*]
  · simp [*]

@[simp] theorem found_ok {o : Option α} : (found o e : EStateM ε σ α) s = .ok a s' ↔ o = some a ∧ s = s' := by
  cases o <;> simp [found]

@[simp] theorem absent_ok {o : Option α} {e : α → ε} :
    (absent o e : EStateM ε σ Unit) s = .ok u s' ↔ o = none ∧ s = s' := by
  cases o <;> simp [absent]

@[simp] theorem transaction_ok : transaction x s = .ok a s' ↔ x s = .ok a s' := by
  unfold transaction
  cases x s <;> simp

/-! A check in front of the rest of a call. -/

@[simp] theorem get_bind_ok {f : σ → EStateM ε σ β} : (get >>= f) s = .ok b s' ↔ f s s = .ok b s' := by
  simp [bind_ok]

@[simp] theorem modify_bind_ok {g : σ → σ} {f : Unit → EStateM ε σ β} :
    (modify g >>= f) s = .ok b s' ↔ f ⟨⟩ (g s) = .ok b s' := by
  simp [bind_ok, Unique.exists_iff]

@[simp] theorem require_bind_ok {p : Prop} [Decidable p] {f : Unit → EStateM ε σ β} :
    (require p e >>= f) s = .ok b s' ↔ p ∧ f ⟨⟩ s = .ok b s' := by
  simp [bind_ok, and_assoc, Unique.exists_iff]

@[simp] theorem found_bind_ok {o : Option α} :
    (found o e >>= f) s = .ok b s' ↔ ∃ a, o = some a ∧ f a s = .ok b s' := by
  simp [bind_ok, and_assoc]

@[simp] theorem absent_bind_ok {o : Option α} {e : α → ε} {f : Unit → EStateM ε σ β} :
    (absent o e >>= f) s = .ok b s' ↔ o = none ∧ f ⟨⟩ s = .ok b s' := by
  simp [bind_ok, and_assoc, Unique.exists_iff]

end

/-! ## Where a call throws -/

/-- The program leaves the state alone. -/
def Checks (x : EStateM ε σ α) : Prop :=
  ∀ s, (∀ a s', x s = .ok a s' → s' = s) ∧ ∀ e s', x s = .error e s' → s' = s

/-- Where the program throws it leaves the state alone. -/
def Whole (x : EStateM ε σ α) : Prop := ∀ s e s', x s = .error e s' → s' = s

/-- The program never throws. -/
def Total (x : EStateM ε σ α) : Prop := ∀ s e s', x s ≠ .error e s'

section
variable {x : EStateM ε σ α} {f : α → EStateM ε σ β}

theorem Total.whole (h : Total x) : Whole x := fun s e s' hx => absurd hx (h s e s')

theorem transaction_whole (x : EStateM ε σ α) : Whole (transaction x) := by
  intro s e s' h
  unfold transaction at h
  cases hx : x s <;> simp_all

theorem Checks.pure (a : α) : Checks (pure a : EStateM ε σ α) :=
  fun _ => ⟨fun _ _ h => (pure_ok.1 h).2.symm, fun _ _ h => by cases h⟩

theorem Checks.throw (e : ε) : Checks (throw e : EStateM ε σ α) :=
  fun _ => ⟨fun _ _ h => (throw_ok.1 h).elim, fun _ _ h => by cases h; rfl⟩

theorem Checks.get : Checks (get : EStateM ε σ σ) :=
  fun _ => ⟨fun _ _ h => (get_ok.1 h).2.symm, fun _ _ h => by cases h⟩

theorem Checks.require (p : Prop) [Decidable p] (e : ε) : Checks (require p e : EStateM ε σ Unit) := by
  unfold Guarded.require
  split
  · exact Checks.pure _
  · exact Checks.throw _

theorem Checks.found (o : Option α) (e : ε) : Checks (found o e : EStateM ε σ α) := by
  cases o
  · exact Checks.throw _
  · exact Checks.pure _

theorem Checks.absent (o : Option α) (e : α → ε) : Checks (absent o e : EStateM ε σ Unit) := by
  cases o
  · exact Checks.pure _
  · exact Checks.throw _

theorem Checks.lift (r : Except ε α) : Checks (lift r : EStateM ε σ α) := by
  cases r
  · exact Checks.throw _
  · exact Checks.pure _

theorem Checks.bind (hx : Checks x) (hf : ∀ a, Checks (f a)) : Checks (x >>= f) := by
  intro s
  rw [bind_apply]
  cases hr : x s with
  | ok a s' =>
    obtain rfl := (hx s).1 a s' hr
    exact hf a s'
  | error e s' =>
    obtain rfl := (hx s).2 e s' hr
    exact ⟨fun _ _ h => (nomatch h), fun _ _ h => (EStateM.Result.error.inj h).2.symm⟩

/-- A check that passes passes on the state it saw. -/
theorem Checks.bind_ok (hx : Checks x) {s s' : σ} {b : β} :
    (x >>= f) s = .ok b s' ↔ ∃ a, x s = .ok a s ∧ f a s = .ok b s' := by
  rw [Guarded.bind_ok]
  constructor
  · rintro ⟨a, s₁, hr, hf⟩
    obtain rfl := (hx s).1 a s₁ hr
    exact ⟨a, hr, hf⟩
  · rintro ⟨a, hr, hf⟩
    exact ⟨a, s, hr, hf⟩

/-- A loop of checks passes where each of them does. -/
theorem Checks.mapM_ok {α' β' : Type} {f : α' → EStateM ε σ β'} (hf : ∀ a, Checks (f a)) {s s' : σ} :
    ∀ {l : List α'} {bs : List β'},
      l.mapM f s = .ok bs s' ↔ s = s' ∧ List.Forall₂ (fun a b => f a s = .ok b s) l bs
  | [], bs => by simp [List.mapM_nil, eq_comm, and_comm]
  | a :: l, bs => by
    rw [List.mapM_cons, (hf a).bind_ok]
    constructor
    · rintro ⟨b, hb, h⟩
      obtain ⟨bs', s₁, hrest, hpure⟩ := Guarded.bind_ok.1 h
      obtain ⟨hs, hall⟩ := (mapM_ok hf).1 hrest
      obtain ⟨rfl, rfl⟩ := pure_ok.1 hpure
      exact ⟨hs, .cons hb hall⟩
    · rintro ⟨rfl, h⟩
      cases h with
      | cons hb hall =>
        exact ⟨_, hb, Guarded.bind_ok.2 ⟨_, _, (mapM_ok hf).2 ⟨rfl, hall⟩, pure_ok.2 ⟨rfl, rfl⟩⟩⟩

/-- A check may come before anything whole. -/
theorem Whole.check (hx : Checks x) (hf : ∀ a, Whole (f a)) : Whole (x >>= f) := by
  intro s e s' h
  rw [bind_apply] at h
  cases hr : x s with
  | ok a s₁ =>
    rw [hr] at h
    rw [← (hx s).1 a s₁ hr]
    exact hf a s₁ e s' h
  | error e₁ s₁ =>
    rw [hr] at h
    cases h
    exact (hx s).2 _ _ hr

theorem Total.pure (a : α) : Total (pure a : EStateM ε σ α) := fun _ _ _ h => by cases h

theorem Total.modify (g : σ → σ) : Total (modify g : EStateM ε σ Unit) := fun _ _ _ h => by cases h

theorem Total.bind (hx : Total x) (hf : ∀ a, Total (f a)) : Total (x >>= f) := by
  intro s e s' h
  rw [bind_apply] at h
  cases hr : x s with
  | ok a s₁ =>
    rw [hr] at h
    exact hf a s₁ e s' h
  | error e₁ s₁ => exact hx s e₁ s₁ hr

end

/-- The state a call leaves. -/
def after (x : EStateM ε σ α) (s : σ) : σ :=
  match x s with
  | .ok _ s' => s'
  | .error _ s' => s'

/-- The call returns. -/
def accepts (x : EStateM ε σ α) (s : σ) : Bool :=
  match x s with
  | .ok _ _ => true
  | .error _ _ => false

theorem accepts_of_ok {x : EStateM ε σ α} {s s' : σ} {a : α} (h : x s = .ok a s') : accepts x s = true := by
  unfold accepts
  rw [h]

/-- Of a whole call: it returns with what it returns, or the state is the one before. -/
theorem Whole.after {x : EStateM ε σ α} (h : Whole x) (s : σ) :
    (∃ a, x s = .ok a (after x s)) ∨ after x s = s := by
  unfold Guarded.after
  cases hr : x s with
  | ok a s' => exact .inl ⟨a, rfl⟩
  | error e s' => exact .inr (h s e s' hr)

end Guarded
