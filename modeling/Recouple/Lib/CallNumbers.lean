import Recouple.Lib.Calls

/-!
# Which call fails

A run is the same under any two schedules of faults that agree on the calls it makes (`Local`), so what is known of a
run whose calls all answer is known of every run that has answered as far. `Numbered` is the triple of a run that is
followed call by call: its assertions speak of the number of calls made, and `At` says where a run that has been
answered all along stands.
-/

namespace Recouple

namespace Calls
variable {σ ε α β : Type}

theorem bind_of_ok {p : Calls σ ε α} {f : α → Calls σ ε β} {faults : Faults} {n m : Nat} {s t : σ} {a : α}
    (h : p faults n s = (.ok a, m, t)) : (p >>= f) faults n s = f a faults m t := by
  simp only [Bind.bind, h]

theorem bind_of_error {p : Calls σ ε α} {f : α → Calls σ ε β} {faults : Faults} {n m : Nat} {s t : σ} {e : ε}
    (h : p faults n s = (.error e, m, t)) : (p >>= f) faults n s = (.error e, m, t) := by
  simp only [Bind.bind, h]

theorem bind_assoc (p : Calls σ ε α) (f : α → Calls σ ε β) {γ : Type} (g : β → Calls σ ε γ) :
    (p >>= f) >>= g = p >>= fun a => f a >>= g := by
  funext faults n s
  rcases hp : p faults n s with ⟨r, m, t⟩
  cases r with
  | ok a =>
    rcases hf : f a faults m t with ⟨r', m', t'⟩
    rw [bind_of_ok hp]
    cases r' with
    | ok b => rw [bind_of_ok hf, bind_of_ok ((bind_of_ok hp).trans hf)]
    | error e => rw [bind_of_error hf, bind_of_error ((bind_of_ok hp).trans hf)]
  | error e => rw [bind_of_error hp, bind_of_error (bind_of_error hp)]

theorem map_id (p : Calls σ ε α) : id <$> p = p := by
  funext faults n s
  show (p >>= Pure.pure) faults n s = p faults n s
  rcases hp : p faults n s with ⟨r, m, t⟩
  cases r with
  | ok a => exact bind_of_ok hp
  | error e => exact bind_of_error hp

instance : LawfulMonad (Calls σ ε) := LawfulMonad.mk' (Calls σ ε) map_id (fun _ _ => rfl) fun p f g => bind_assoc p f g

/-! ## The calls a run makes -/

/-- What a run does is decided by the faults of the calls it makes. -/
structure Local (p : Calls σ ε α) : Prop where
  grows : ∀ faults n s, n ≤ (p faults n s).2.1
  agrees : ∀ faults faults' n s, (∀ k, n ≤ k → k < (p faults n s).2.1 → faults' k = faults k) →
    p faults' n s = p faults n s

namespace Local
variable {p : Calls σ ε α}

theorem pure (a : α) : Local (Pure.pure a : Calls σ ε α) := ⟨fun _ _ _ => Nat.le_refl _, fun _ _ _ _ _ => rfl⟩

theorem throw (e : ε) : Local (Calls.throw e : Calls σ ε α) := ⟨fun _ _ _ => Nat.le_refl _, fun _ _ _ _ _ => rfl⟩

theorem lift (r : Except ε α) : Local (Calls.lift r : Calls σ ε α) := ⟨fun _ _ _ => Nat.le_refl _, fun _ _ _ _ _ => rfl⟩

theorem call (failure : ε) (f : σ → Except ε α × σ) : Local (Calls.call failure f) := by
  have hnumber : ∀ faults n s, (Calls.call failure f faults n s).2.1 = n + 1 := by
    intro faults n s
    unfold Calls.call
    split <;> rfl
  refine ⟨fun faults n s => by rw [hnumber]; exact Nat.le_succ n, fun faults faults' n s h => ?_⟩
  unfold Calls.call
  rw [h n (Nat.le_refl n) (by rw [hnumber]; exact Nat.lt_succ_self n)]

theorem bind {f : α → Calls σ ε β} (hp : Local p) (hf : ∀ a, Local (f a)) : Local (p >>= f) := by
  constructor
  · intro faults n s
    have hgrows := hp.grows faults n s
    rcases hrun : p faults n s with ⟨r, m, t⟩
    rw [hrun] at hgrows
    cases r with
    | ok a =>
      rw [bind_of_ok hrun]
      exact hgrows.trans ((hf a).grows faults m t)
    | error e =>
      rw [bind_of_error hrun]
      exact hgrows
  · intro faults faults' n s h
    have hgrows := hp.grows faults n s
    rcases hrun : p faults n s with ⟨r, m, t⟩
    rw [hrun] at hgrows
    cases r with
    | ok a =>
      rw [bind_of_ok hrun] at h ⊢
      have hfirst : p faults' n s = (.ok a, m, t) := by
        rw [← hrun]
        refine hp.agrees faults faults' n s fun k hk hlt => h k hk ?_
        rw [hrun] at hlt
        exact Nat.lt_of_lt_of_le hlt ((hf a).grows faults m t)
      rw [bind_of_ok hfirst]
      exact (hf a).agrees faults faults' m t fun k hk hlt => h k (hgrows.trans hk) hlt
    | error e =>
      rw [bind_of_error hrun] at h ⊢
      refine bind_of_error ?_
      rw [← hrun]
      refine hp.agrees faults faults' n s fun k hk hlt => h k hk ?_
      rwa [hrun] at hlt

theorem handle {handler : ε → Calls σ ε α} (hp : Local p) (hh : ∀ e, Local (handler e)) :
    Local (Calls.handle p handler) := by
  constructor
  · intro faults n s
    have hgrows := hp.grows faults n s
    unfold Calls.handle
    rcases hrun : p faults n s with ⟨r, m, t⟩
    rw [hrun] at hgrows
    cases r with
    | ok a => exact hgrows
    | error e => exact hgrows.trans ((hh e).grows faults m t)
  · intro faults faults' n s h
    have hgrows := hp.grows faults n s
    have hagrees := hp.agrees faults faults' n s
    unfold Calls.handle at h ⊢
    rcases hrun : p faults n s with ⟨r, m, t⟩
    rw [hrun] at h hgrows hagrees
    cases r with
    | ok a => rw [hagrees h]
    | error e =>
      rw [hagrees fun k hk hlt => h k hk (Nat.lt_of_lt_of_le hlt ((hh e).grows faults m t))]
      exact (hh e).agrees faults faults' m t fun k hk hlt => h k (hgrows.trans hk) hlt

theorem foldlM {γ : Type} {body : β → γ → Calls σ ε β} (hbody : ∀ b x, Local (body b x)) (xs : List γ) (b : β) :
    Local (xs.foldlM body b) := by
  induction xs generalizing b with
  | nil => exact pure b
  | cons x xs ih =>
    rw [List.foldlM_cons]
    exact (hbody b x).bind fun b' => ih b'

theorem forM {γ : Type} {body : γ → Calls σ ε Unit} (hbody : ∀ x, Local (body x)) (xs : List γ) :
    Local (xs.forM body) := by
  induction xs with
  | nil => exact pure ()
  | cons x xs ih => exact (hbody x).bind fun _ => ih

end Local

/-! ## Runs followed call by call -/

/-- A run that has made `c` calls, all answered, and stands at the state `t`. -/
structure At (faults : Faults) (c : Nat) (t : σ) (n : Nat) (s : σ) : Prop where
  number : n = c
  state : s = t
  answered : ∀ k < c, faults k = none

/-- A triple whose assertions know how many calls were made. -/
def Numbered (faults : Faults) (P : Nat → σ → Prop) (p : Calls σ ε α) (Q : α → Nat → σ → Prop) (E : ε → σ → Prop) : Prop :=
  ∀ n s, P n s →
    match p faults n s with
    | (.ok a, m, s') => Q a m s'
    | (.error e, _, s') => E e s'

namespace Numbered
variable {faults : Faults} {P : Nat → σ → Prop} {p : Calls σ ε α} {Q : α → Nat → σ → Prop} {E : ε → σ → Prop}
variable {c : Nat} {t : σ}

theorem of_triple {P : σ → Prop} {Q : α → σ → Prop} (h : Triple faults P p Q E) :
    Numbered faults (fun _ => P) p (fun a _ => Q a) E := by
  intro n s hs
  have := h n s hs
  rcases hrun : p faults n s with ⟨r, m, s'⟩
  rw [hrun] at this
  cases r with
  | ok a => exact this
  | error e => exact this

theorem pure {a : α} (h : ∀ n s, P n s → Q a n s) : Numbered faults P (Pure.pure a : Calls σ ε α) Q E :=
  fun n s hs => h n s hs

theorem bind {f : α → Calls σ ε β} {M : α → Nat → σ → Prop} {R : β → Nat → σ → Prop} (hp : Numbered faults P p M E)
    (hf : ∀ a, Numbered faults (M a) (f a) R E) : Numbered faults P (p >>= f) R E := by
  intro n s hs
  have h := hp n s hs
  rcases hrun : p faults n s with ⟨r, m, s'⟩
  rw [hrun] at h
  cases r with
  | ok a =>
    rw [bind_of_ok hrun]
    exact hf a m s' h
  | error e =>
    rw [bind_of_error hrun]
    exact h

/-- What is returned is known. -/
theorem bind_eq {f : α → Calls σ ε β} {a : α} {M : Nat → σ → Prop} {R : β → Nat → σ → Prop}
    (hp : Numbered faults P p (fun b n s => b = a ∧ M n s) E) (hf : Numbered faults M (f a) R E) :
    Numbered faults P (p >>= f) R E :=
  hp.bind fun _ n s hs => hs.1 ▸ hf n s hs.2

theorem handle {handler : ε → Calls σ ε α} {M : ε → σ → Prop} (hp : Numbered faults P p Q M)
    (hh : ∀ e, Numbered faults (fun _ => M e) (handler e) Q E) : Numbered faults P (Calls.handle p handler) Q E := by
  intro n s hs
  have h := hp n s hs
  rcases hrun : p faults n s with ⟨r, m, s'⟩
  rw [hrun] at h
  unfold Calls.handle
  rw [hrun]
  cases r with
  | ok a => exact h
  | error e => exact hh e m s' h

/-- One call more, if it is answered. -/
theorem call {failure : ε} {f : σ → Except ε α × σ} {a : α} (ha : (f t).1 = .ok a)
    (hlost : (∀ k < c, faults k = none) → faults c = some .lost → E failure t)
    (hunacknowledged : (∀ k < c, faults k = none) → faults c = some .unacknowledged → E failure (f t).2) :
    Numbered faults (At faults c t) (Calls.call failure f) (fun b n s => b = a ∧ At faults (c + 1) (f t).2 n s) E := by
  rintro n s ⟨rfl, rfl, hanswered⟩
  unfold Calls.call
  cases hn : faults n with
  | none =>
    dsimp only
    rw [ha]
    refine ⟨rfl, rfl, rfl, fun k hk => ?_⟩
    rcases Nat.lt_succ_iff_lt_or_eq.1 hk with hk | rfl
    · exact hanswered k hk
    · exact hn
  | some fault =>
    cases fault with
    | lost => exact hlost hanswered hn
    | unacknowledged => exact hunacknowledged hanswered hn

end Numbered

end Calls
end Recouple
