import Mathlib

/-!
# Hash chains

A chain of blocks is hashed one after the other: each block after the first is hashed behind the
digest of the one before. `chainEnd_eq_iff` says what the last digest commits to when the digest has
no collision among the inputs hashed: the whole list of blocks, except that the *first* block stands
alone, without a predecessor, so a first block that reads as a digest followed by a block can take
the place of a whole chain that ends there (`Recombines`).
-/

namespace HashChain

variable {α : Type} (digest : List α → List α)

/-- What is hashed for a block: the digest before it, if there is one, then the block. -/
def input (prev : Option (List α)) (block : List α) : List α := prev.getD [] ++ block

/-- The digest a chain of blocks ends in. -/
def chainEnd (blocks : List (List α)) : Option (List α) :=
  blocks.foldl (fun prev block => some (digest (input prev block))) none

/-- The inputs hashed along the rest of a chain. -/
def inputsFrom : Option (List α) → List (List α) → List (List α)
  | _, [] => []
  | prev, block :: blocks => input prev block :: inputsFrom (some (digest (input prev block))) blocks

/-- The inputs hashed along a chain. -/
def inputs (blocks : List (List α)) : List (List α) := inputsFrom digest none blocks

/-- No two of these inputs have one digest. -/
def CollisionFree (xs : List (List α)) : Prop := ∀ x ∈ xs, ∀ y ∈ xs, digest x = digest y → x = y

instance [DecidableEq α] (xs : List (List α)) : Decidable (CollisionFree digest xs) :=
  inferInstanceAs (Decidable (∀ x ∈ xs, ∀ y ∈ xs, digest x = digest y → x = y))

/-- The digests all have one length. -/
def FixedLength : Prop := ∀ x y, (digest x).length = (digest y).length

/-- The first block of one chain reads as the digest before some later block of the other, followed by
that block, and what comes after is the same in both. -/
def Recombines (bs cs : List (List α)) : Prop :=
  ∃ block rest before later, bs = block :: rest ∧ cs = before ++ later :: rest ∧ before ≠ [] ∧
    block = (chainEnd digest before).getD [] ++ later

/-! ## One block more -/

@[simp] theorem chainEnd_nil : chainEnd digest [] = none := rfl

@[simp] theorem chainEnd_concat (bs : List (List α)) (b : List α) :
    chainEnd digest (bs ++ [b]) = some (digest (input (chainEnd digest bs) b)) := by
  simp [chainEnd]

theorem chainEnd_append_congr {bs cs : List (List α)} (h : chainEnd digest bs = chainEnd digest cs)
    (rest : List (List α)) : chainEnd digest (bs ++ rest) = chainEnd digest (cs ++ rest) := by
  simp only [chainEnd, List.foldl_append] at h ⊢
  rw [h]

/-- A chain with a block ends in some digest of an input. -/
theorem chainEnd_ne_nil {bs : List (List α)} (h : bs ≠ []) : ∃ x, chainEnd digest bs = some (digest x) := by
  obtain rfl | ⟨cs, b, rfl⟩ := List.eq_nil_or_concat' bs
  · exact absurd rfl h
  · exact ⟨_, chainEnd_concat digest cs b⟩

theorem inputsFrom_concat : ∀ (prev : Option (List α)) (bs : List (List α)) (b : List α),
    inputsFrom digest prev (bs ++ [b]) = inputsFrom digest prev bs ++
      [input (bs.foldl (fun prev block => some (digest (input prev block))) prev) b]
  | _, [], _ => rfl
  | prev, c :: cs, b => by
    simp only [List.cons_append, inputsFrom, List.foldl_cons, inputsFrom_concat]

theorem inputs_concat (bs : List (List α)) (b : List α) :
    inputs digest (bs ++ [b]) = inputs digest bs ++ [input (chainEnd digest bs) b] :=
  inputsFrom_concat digest none bs b

theorem CollisionFree.subset {xs ys : List (List α)} (h : CollisionFree digest ys) (hs : xs ⊆ ys) :
    CollisionFree digest xs :=
  fun x hx y hy => h x (hs hx) y (hs hy)

/-! ## Recombination -/

theorem Recombines.concat {bs cs : List (List α)} (h : Recombines digest bs cs) (b : List α) :
    Recombines digest (bs ++ [b]) (cs ++ [b]) := by
  obtain ⟨block, rest, before, later, rfl, rfl, hne, hb⟩ := h
  exact ⟨block, rest ++ [b], before, later, by simp, by simp, hne, hb⟩

/-- The chain recombined with is the longer one. -/
theorem Recombines.length_lt {bs cs : List (List α)} (h : Recombines digest bs cs) :
    bs.length < cs.length := by
  obtain ⟨block, rest, before, later, rfl, rfl, hne, -⟩ := h
  have := List.length_pos_iff.2 hne
  simp only [List.length_cons, List.length_append]
  omega

theorem Recombines.chainEnd_eq {bs cs : List (List α)} (h : Recombines digest bs cs) :
    chainEnd digest bs = chainEnd digest cs := by
  obtain ⟨block, rest, before, later, rfl, rfl, -, rfl⟩ := h
  have hone : chainEnd digest [(chainEnd digest before).getD [] ++ later] =
      chainEnd digest (before ++ [later]) := by
    rw [chainEnd_concat]; rfl
  simpa using chainEnd_append_congr digest hone rest

/-! ## What the last digest commits to -/

/-- The step from the end: equal last digests come from equal inputs, and two digests of one length
are told off the front of them. -/
theorem input_eq_cases (hlen : FixedLength digest) {bs cs : List (List α)} {b c : List α}
    (h : input (chainEnd digest bs) b = input (chainEnd digest cs) c) :
    (bs = [] ∧ cs ≠ [] ∧ b = (chainEnd digest cs).getD [] ++ c) ∨
      (cs = [] ∧ bs ≠ [] ∧ c = (chainEnd digest bs).getD [] ++ b) ∨
      (chainEnd digest bs = chainEnd digest cs ∧ b = c) := by
  by_cases hb : bs = [] <;> by_cases hc : cs = []
  · subst hb hc
    exact .inr (.inr ⟨rfl, by simpa [input] using h⟩)
  · subst hb
    exact .inl ⟨rfl, hc, by simpa [input] using h⟩
  · subst hc
    exact .inr (.inl ⟨rfl, hb, by simpa [input] using h.symm⟩)
  · obtain ⟨x, hx⟩ := chainEnd_ne_nil digest hb
    obtain ⟨y, hy⟩ := chainEnd_ne_nil digest hc
    rw [hx, hy] at h ⊢
    obtain ⟨h1, h2⟩ := List.append_inj h (hlen x y)
    exact .inr (.inr ⟨by rw [show digest x = digest y from h1], h2⟩)

/-- **Two chains end in one digest exactly when they have the same blocks or one of them recombines
into the other.** -/
theorem chainEnd_eq_iff (hlen : FixedLength digest) {bs cs : List (List α)}
    (hfree : CollisionFree digest (inputs digest bs ++ inputs digest cs)) :
    chainEnd digest bs = chainEnd digest cs ↔
      bs = cs ∨ Recombines digest bs cs ∨ Recombines digest cs bs := by
  refine ⟨fun h => ?_, ?_⟩
  · -- from the last block towards the first, in both chains at once
    induction bs using List.reverseRecOn generalizing cs with
    | nil =>
      obtain rfl | ⟨cs, c, rfl⟩ := List.eq_nil_or_concat' cs
      · exact .inl rfl
      · simp at h
    | append_singleton bs b ih =>
      obtain rfl | ⟨cs, c, rfl⟩ := List.eq_nil_or_concat' cs
      · simp at h
      · rw [chainEnd_concat, chainEnd_concat, Option.some_inj] at h
        rw [inputs_concat, inputs_concat] at hfree
        have hin := hfree _ (by simp) _ (by simp) h
        rcases input_eq_cases digest hlen hin with ⟨rfl, hne, hb⟩ | ⟨rfl, hne, hc⟩ | ⟨hend, rfl⟩
        · exact .inr (.inl ⟨b, [], cs, c, rfl, rfl, hne, hb⟩)
        · exact .inr (.inr ⟨c, [], bs, b, rfl, rfl, hne, hc⟩)
        · have hfree' : CollisionFree digest (inputs digest bs ++ inputs digest cs) :=
            hfree.subset digest fun x hx => by
              rcases List.mem_append.1 hx with hx | hx <;> simp [hx]
          rcases ih hfree' hend with rfl | h | h
          · exact .inl rfl
          · exact .inr (.inl (h.concat digest b))
          · exact .inr (.inr (h.concat digest b))
  · rintro (rfl | h | h)
    · rfl
    · exact h.chainEnd_eq
    · exact (h.chainEnd_eq).symm

end HashChain
