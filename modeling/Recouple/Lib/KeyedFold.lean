import Mathlib

/-!
# A table of accumulators filled by one loop

A loop runs over events; each event names one slot of a table and updates that slot alone, and an
update may throw. `foldlM_update_ok` says what the loop leaves in a slot: exactly what the slot's own
events, taken alone and in their order, leave there. `foldlM_update_returns` says when it returns:
exactly when every slot's own loop does, so the only thing one slot can do to another is to throw.
-/

namespace KeyedFold

universe u

variable {ε κ σ ev : Type*} [DecidableEq κ]

/-- What a computation that returned went through. -/
theorem bind_ok {α β : Type u} {x : Except ε α} {f : α → Except ε β} {b : β} :
    x >>= f = .ok b ↔ ∃ a, x = .ok a ∧ f a = .ok b := by
  cases x with
  | error e =>
    constructor
    · intro h; cases h
    · rintro ⟨a, h, -⟩; cases h
  | ok a =>
    constructor
    · intro h; exact ⟨a, rfl, h⟩
    · rintro ⟨_, h, hf⟩; cases h; exact hf

theorem map_ok {α β : Type*} {x : Except ε α} {f : α → β} {b : β} :
    x.map f = .ok b ↔ ∃ a, x = .ok a ∧ f a = b := by
  cases x <;> simp [Except.map]

theorem mapError_ok {α ε' : Type*} {f : ε → ε'} {x : Except ε α} {a : α} :
    x.mapError f = .ok a ↔ x = .ok a := by
  cases x <;> simp [Except.mapError]

/-- A loop over rows that never throws. -/
theorem mapM_ok {α β : Type u} {f : α → Except ε β} {g : α → β} :
    ∀ {l : List α}, (∀ a ∈ l, f a = .ok (g a)) → l.mapM f = .ok (l.map g)
  | [], _ => rfl
  | a :: l, h => by
    rw [List.forall_mem_cons] at h
    rw [List.mapM_cons, h.1]
    exact bind_ok.2 ⟨g a, rfl, bind_ok.2 ⟨_, mapM_ok h.2, rfl⟩⟩

theorem mapM_forall₂ {α β : Type u} {f : α → Except ε β} :
    ∀ {l : List α} {bs : List β}, l.mapM f = .ok bs → List.Forall₂ (fun a b => f a = .ok b) l bs
  | [], bs, h => by
    cases h
    exact .nil
  | a :: l, bs, h => by
    rw [List.mapM_cons] at h
    obtain ⟨b, hb, h⟩ := bind_ok.1 h
    obtain ⟨rest, hrest, h⟩ := bind_ok.1 h
    cases h
    exact .cons hb (mapM_forall₂ hrest)

theorem mapM_iff_forall₂ {α β : Type u} {f : α → Except ε β} {l : List α} {bs : List β} :
    l.mapM f = .ok bs ↔ List.Forall₂ (fun a b => f a = .ok b) l bs := by
  refine ⟨mapM_forall₂, fun h => ?_⟩
  induction h with
  | nil => rfl
  | cons ha _ ih =>
    rw [List.mapM_cons]
    exact bind_ok.2 ⟨_, ha, bind_ok.2 ⟨_, ih, rfl⟩⟩

/-- A loop over rows, each of which is checked and written. -/
theorem mapM_ok_iff {α β : Type u} {f : α → Except ε β} {p : α → Prop} {g : α → β}
    (h : ∀ a b, f a = .ok b ↔ p a ∧ b = g a) {as : List α} {bs : List β} :
    as.mapM f = .ok bs ↔ (∀ a ∈ as, p a) ∧ bs = as.map g := by
  induction as generalizing bs with
  | nil =>
    show Except.ok [] = Except.ok bs ↔ _
    rw [Except.ok.injEq]
    simp [eq_comm]
  | cons a as ih =>
    rw [List.mapM_cons, bind_ok, List.forall_mem_cons]
    constructor
    · rintro ⟨b, hb, hbind⟩
      obtain ⟨rest, hrest, hcons⟩ := bind_ok.1 hbind
      obtain ⟨hp, rfl⟩ := (h a b).1 hb
      obtain ⟨hall, rfl⟩ := ih.1 hrest
      exact ⟨⟨hp, hall⟩, (Except.ok.inj hcons).symm⟩
    · rintro ⟨⟨hp, hall⟩, rfl⟩
      exact ⟨g a, (h a _).2 ⟨hp, rfl⟩, bind_ok.2 ⟨_, ih.2 ⟨hall, rfl⟩, rfl⟩⟩

/-- A loop of which every step returns, returns. -/
theorem mapM_returns {α β : Type u} {f : α → Except ε β} {l : List α} (h : ∀ a ∈ l, ∃ b, f a = .ok b) :
    ∃ bs, l.mapM f = .ok bs := by
  induction l with
  | nil => exact ⟨[], rfl⟩
  | cons a l ih =>
    rw [List.forall_mem_cons] at h
    obtain ⟨b, hb⟩ := h.1
    obtain ⟨bs, hbs⟩ := ih h.2
    rw [List.mapM_cons]
    exact ⟨b :: bs, bind_ok.2 ⟨b, hb, bind_ok.2 ⟨bs, hbs, rfl⟩⟩⟩

theorem forM_ok {α : Type} {f : α → Except ε Unit} {as : List α} : as.forM f = .ok () ↔ ∀ a ∈ as, f a = .ok () := by
  induction as with
  | nil => exact ⟨fun _ a ha => absurd ha (by simp), fun _ => rfl⟩
  | cons a as ih =>
    show (f a >>= fun _ => as.forM f) = .ok () ↔ _
    rw [bind_ok, List.forall_mem_cons, ← ih]
    exact ⟨fun ⟨_, ha, has⟩ => ⟨ha, has⟩, fun ⟨ha, has⟩ => ⟨(), ha, has⟩⟩

theorem throw_if_ok {α : Type} {p : Prop} [Decidable p] {m : ε} {x : Except ε α} {a : α} :
    (if p then do throw m; x else x) = .ok a ↔ ¬ p ∧ x = .ok a := by
  by_cases hp : p
  · rw [if_pos hp]
    constructor
    · intro h
      cases h
    · exact fun h => absurd hp h.1
  · rw [if_neg hp]
    exact (and_iff_right hp).symm

theorem exists_of_mem_left {α β : Type*} {R : α → β → Prop} {l : List α} {l' : List β} (h : List.Forall₂ R l l') {a : α}
    (ha : a ∈ l) : ∃ b ∈ l', R a b := by
  induction h with
  | nil => cases ha
  | cons hab _ ih =>
    rcases List.mem_cons.1 ha with rfl | ha
    · exact ⟨_, List.mem_cons_self, hab⟩
    · obtain ⟨b, hb, hR⟩ := ih ha
      exact ⟨b, List.mem_cons_of_mem _ hb, hR⟩

theorem exists_of_mem_right {α β : Type*} {R : α → β → Prop} {l : List α} {l' : List β} (h : List.Forall₂ R l l') {b : β}
    (hb : b ∈ l') : ∃ a ∈ l, R a b :=
  exists_of_mem_left h.flip hb

theorem forall₂_mem {α β : Type*} {R : α → β → Prop} {l : List α} {l' : List β} (h : List.Forall₂ R l l') :
    List.Forall₂ (fun a b => a ∈ l ∧ b ∈ l' ∧ R a b) l l' := by
  induction h with
  | nil => exact .nil
  | cons hab _ ih =>
    exact .cons ⟨List.mem_cons_self, List.mem_cons_self, hab⟩
      (ih.imp fun _ _ hm => ⟨List.mem_cons_of_mem _ hm.1, List.mem_cons_of_mem _ hm.2.1, hm.2.2⟩)

/-- Related lists are related place by place. -/
theorem getElem?_of_right {α β : Type*} {R : α → β → Prop} {l : List α} {l' : List β} (h : List.Forall₂ R l l')
    {b : β} : ∀ {i : Nat}, l'[i]? = some b → ∃ a, l[i]? = some a ∧ R a b := by
  induction h with
  | nil => intro i hb; simp at hb
  | cons hr _ ih =>
    intro i hb
    cases i with
    | zero =>
      obtain rfl := Option.some.inj hb
      exact ⟨_, rfl, hr⟩
    | succ i =>
      obtain ⟨a, ha, hr⟩ := ih hb
      exact ⟨a, ha, hr⟩

theorem bind_error {α β : Type} {x : Except ε α} {f : α → Except ε β} {e : ε} (h : x >>= f = .error e) :
    x = .error e ∨ ∃ a, x = .ok a ∧ f a = .error e := by
  cases x with
  | error e' => exact .inl (congrArg Except.error (Except.error.inj h))
  | ok a => exact .inr ⟨a, rfl, h⟩

theorem mapM_error {α β : Type} {f : α → Except ε β} {l : List α} {e : ε} (h : l.mapM f = .error e) :
    ∃ a ∈ l, f a = .error e := by
  induction l with
  | nil => cases h
  | cons a l ih =>
    rw [List.mapM_cons] at h
    rcases bind_error h with ha | ⟨b, -, h⟩
    · exact ⟨a, List.mem_cons_self, ha⟩
    · rcases bind_error h with hl | ⟨bs, -, h⟩
      · obtain ⟨a', ha', he⟩ := ih hl
        exact ⟨a', List.mem_cons_of_mem _ ha', he⟩
      · cases h

theorem forall₂_filterMap {α β : Type} {f : α → Option β} {R : α → β → Prop} :
    ∀ {l : List α}, (∀ a ∈ l, ∃ b, f a = some b ∧ R a b) → List.Forall₂ R l (l.filterMap f)
  | [], _ => .nil
  | a :: l, h => by
    obtain ⟨⟨b, hb, hr⟩, hl⟩ := List.forall_mem_cons.1 h
    rw [List.filterMap_cons_some hb]
    exact .cons hr (forall₂_filterMap hl)

theorem map_eq_of_forall₂ {α β γ : Type} {R : α → β → Prop} {f : α → γ} {g : β → γ} {l : List α} {l' : List β}
    (hR : ∀ a b, R a b → f a = g b) (h : List.Forall₂ R l l') : l.map f = l'.map g := by
  induction h with
  | nil => rfl
  | cons hab _ ih => rw [List.map_cons, List.map_cons, hR _ _ hab, ih]

theorem mapM_all {α β : Type u} {f : α → Except ε β} {l : List α} {bs : List β} (h : l.mapM f = .ok bs) :
    ∀ a ∈ l, ∃ b, f a = .ok b := by
  have hall := mapM_forall₂ h
  clear h
  induction hall with
  | nil => exact fun a ha => absurd ha List.not_mem_nil
  | cons hb _ ih => exact List.forall_mem_cons.2 ⟨⟨_, hb⟩, ih⟩

/-! ## One accumulator -/

section
variable {f : σ → ev → Except ε σ} {I : List ev → σ → Prop} {G : List ev → Prop}

theorem foldlM_inv_from (step : ∀ {done s e s'}, I done s → f s e = .ok s' → I (done ++ [e]) s') :
    ∀ {l done : List ev} {s s' : σ}, I done s → l.foldlM f s = .ok s' → I (done ++ l) s'
  | [], done, s, s', hi, h => by
    simp only [List.foldlM_nil, pure, Except.pure, Except.ok.injEq] at h
    subst h; simpa using hi
  | e :: l, done, s, s', hi, h => by
    rw [List.foldlM_cons] at h
    obtain ⟨u, hu, h⟩ := bind_ok.1 h
    simpa using foldlM_inv_from step (l := l) (step hi hu) h

/-- An invariant of the events so far that every step keeps holds at the end of the run. -/
theorem foldlM_inv (step : ∀ {done s e s'}, I done s → f s e = .ok s' → I (done ++ [e]) s')
    {l : List ev} {s s' : σ} (hi : I [] s) (h : l.foldlM f s = .ok s') : I l s' := by
  simpa using foldlM_inv_from (I := I) (fun hi hu => step hi hu) hi h

theorem foldlM_returns_from
    (step : ∀ {done s e s'}, I done s → f s e = .ok s' → I (done ++ [e]) s')
    (returns : ∀ {done s e}, I done s → ((∃ s', f s e = .ok s') ↔ G (done ++ [e]))) :
    ∀ {l done : List ev} {s : σ}, I done s →
      ((∃ s', l.foldlM f s = .ok s') ↔ ∀ p, p ≠ [] → p <+: l → G (done ++ p))
  | [], done, s, _ => by
    refine ⟨fun _ p hp hpl => absurd (List.prefix_nil.1 hpl) hp, fun _ => ⟨s, rfl⟩⟩
  | e :: l, done, s, hi => by
    rw [List.foldlM_cons]
    constructor
    · rintro ⟨s', h⟩ p hp hpl
      obtain ⟨u, hu, hrest⟩ := bind_ok.1 h
      obtain ⟨c, p, rfl⟩ := List.exists_cons_of_ne_nil hp
      obtain ⟨rfl, hpl'⟩ := List.cons_prefix_cons.1 hpl
      rcases eq_or_ne p [] with rfl | hp'
      · exact (returns hi).1 ⟨u, hu⟩
      · have := (foldlM_returns_from step returns (step hi hu)).1 ⟨s', hrest⟩ p hp' hpl'
        simpa using this
    · intro h
      obtain ⟨u, hu⟩ := (returns hi).2 (h [e] (by simp) (by simp))
      rw [hu]
      refine (foldlM_returns_from step returns (step hi hu)).2 fun p hp hpl => ?_
      simpa using h (e :: p) (by simp) (List.cons_prefix_cons.2 ⟨rfl, hpl⟩)

/-- A run returns exactly when every step does: `G done` says that the step that ends `done` does. -/
theorem foldlM_returns (step : ∀ {done s e s'}, I done s → f s e = .ok s' → I (done ++ [e]) s')
    (returns : ∀ {done s e}, I done s → ((∃ s', f s e = .ok s') ↔ G (done ++ [e])))
    {l : List ev} {s : σ} (hi : I [] s) :
    (∃ s', l.foldlM f s = .ok s') ↔ ∀ p, p ≠ [] → p <+: l → G p := by
  simpa using foldlM_returns_from (I := I) (fun hi hu => step hi hu) (fun hi => returns hi) hi (l := l)

end

/-- A loop inside a loop is one loop over the events of both. -/
theorem foldlM_flatMap {β : Type*} (f : σ → ev → Except ε σ) (g : β → List ev) :
    ∀ (l : List β) (s : σ), (l.flatMap g).foldlM f s = l.foldlM (fun s b => (g b).foldlM f s) s
  | [], _ => rfl
  | b :: l, s => by
    rw [List.flatMap_cons, List.foldlM_append, List.foldlM_cons]
    congr 1
    funext s'
    exact foldlM_flatMap f g l s'

/-! ## A table of accumulators -/

/-- One event: its slot is read, updated and written back. -/
def update (key : ev → κ) (f : σ → ev → Except ε σ) (t : κ → σ) (e : ev) : Except ε (κ → σ) :=
  (f (t (key e)) e).map (Function.update t (key e))

variable {key : ev → κ} {f : σ → ev → Except ε σ}

theorem update_ok {t t' : κ → σ} {e : ev} :
    update key f t e = .ok t' ↔ ∃ s, f (t (key e)) e = .ok s ∧ t' = Function.update t (key e) s := by
  unfold update
  rw [map_ok]
  simp only [eq_comm]

/-- **A slot ends as its own events leave it.** -/
theorem foldlM_update_ok : ∀ {l : List ev} {t t' : κ → σ}, l.foldlM (update key f) t = .ok t' →
    ∀ k, (l.filter (fun e => key e = k)).foldlM f (t k) = .ok (t' k)
  | [], t, t', h, k => by
    simp only [List.foldlM_nil, pure, Except.pure, Except.ok.injEq] at h
    subst h; rfl
  | e :: l, t, t', h, k => by
    rw [List.foldlM_cons] at h
    obtain ⟨u, hu, h⟩ := bind_ok.1 h
    obtain ⟨s, hs, rfl⟩ := update_ok.1 hu
    have ih := foldlM_update_ok (l := l) h k
    by_cases hk : key e = k
    · subst hk
      rw [Function.update_self] at ih
      rw [List.filter_cons_of_pos (by simp), List.foldlM_cons, hs]
      exact ih
    · rw [List.filter_cons_of_neg (by simpa using hk)]
      simpa [Function.update_of_ne (Ne.symm hk)] using ih

/-- **The loop returns exactly when every slot's own loop does.** -/
theorem foldlM_update_returns : ∀ {l : List ev} {t : κ → σ},
    (∃ t', l.foldlM (update key f) t = .ok t') ↔
      ∀ k, ∃ s, (l.filter (fun e => key e = k)).foldlM f (t k) = .ok s
  | [], t => by simp [pure, Except.pure]
  | e :: l, t => by
    constructor
    · rintro ⟨t', h⟩ k
      exact ⟨_, foldlM_update_ok h k⟩
    · intro h
      obtain ⟨s', hs'⟩ := h (key e)
      rw [List.filter_cons_of_pos (by simp), List.foldlM_cons] at hs'
      obtain ⟨s, hs, hs'⟩ := bind_ok.1 hs'
      have hu : update key f t e = .ok (Function.update t (key e) s) := update_ok.2 ⟨s, hs, rfl⟩
      rw [List.foldlM_cons, hu]
      refine (foldlM_update_returns (l := l) (t := Function.update t (key e) s)).2 fun k => ?_
      by_cases hk : key e = k
      · subst hk; exact ⟨s', by rw [Function.update_self]; exact hs'⟩
      · obtain ⟨s2, hs2⟩ := h k
        rw [List.filter_cons_of_neg (by simpa using hk)] at hs2
        exact ⟨s2, by simpa [Function.update_of_ne (Ne.symm hk)] using hs2⟩

end KeyedFold
