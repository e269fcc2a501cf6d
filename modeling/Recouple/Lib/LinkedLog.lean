import Mathlib

/-!
# Linked logs

A log whose entries each carry a digest, the digest of the entry before, and a content. `Seals` says which digest is
one over a content and a digest before it. Where the digests of two linked logs bind what they are taken over, the last
digest commits to the whole log (`Linked.eq_of_head_eq`): another log that ends in it is the same one.
-/

namespace LinkedLog

variable {δ γ : Type*}

structure Entry (δ γ : Type*) where
  before : Option δ
  digest : δ
  content : γ

/-- The digest of the last entry. -/
def head (es : List (Entry δ γ)) : Option δ := es.getLast?.map Entry.digest

@[simp] theorem head_nil : head ([] : List (Entry δ γ)) = none := rfl

@[simp] theorem head_concat (es : List (Entry δ γ)) (e : Entry δ γ) : head (es ++ [e]) = some e.digest := by
  simp [head]

variable (Seals : γ → Option δ → δ → Prop)

/-- Each entry's digest is taken over its content and the digest of the entry before, which it names. -/
inductive Linked : List (Entry δ γ) → Prop
  | nil : Linked []
  | concat {es : List (Entry δ γ)} {e : Entry δ γ} (log : Linked es) (follows : e.before = head es)
      (sealed : Seals e.content e.before e.digest) : Linked (es ++ [e])

/-- Entries of one digest have one content and one predecessor. -/
def Binding (es fs : List (Entry δ γ)) : Prop :=
  ∀ e ∈ es, ∀ f ∈ fs, Seals e.content e.before e.digest → Seals f.content f.before f.digest → e.digest = f.digest →
    e.content = f.content ∧ e.before = f.before

variable {Seals} {es fs : List (Entry δ γ)} {e : Entry δ γ}

theorem Binding.subset {es' fs' : List (Entry δ γ)} (h : Binding Seals es fs) (he : es' ⊆ es) (hf : fs' ⊆ fs) :
    Binding Seals es' fs' :=
  fun e hme f hmf => h e (he hme) f (hf hmf)

/-- A linked log stays linked without its last entry. -/
theorem Linked.of_concat (h : Linked Seals (es ++ [e])) :
    Linked Seals es ∧ e.before = head es ∧ Seals e.content e.before e.digest := by
  generalize hes : es ++ [e] = all at h
  cases h with
  | nil => simp at hes
  | concat log follows sealed =>
    obtain ⟨rfl, he⟩ := List.append_inj' hes rfl
    cases he
    exact ⟨log, follows, sealed⟩

/-- **The last digest commits to the log.** -/
theorem Linked.eq_of_head_eq (he : Linked Seals es) (hf : Linked Seals fs) (hbind : Binding Seals es fs)
    (h : head es = head fs) : es = fs := by
  -- from the last entry towards the first, in both logs at once
  induction he generalizing fs with
  | nil =>
    obtain rfl | ⟨fs, f, rfl⟩ := List.eq_nil_or_concat' fs
    · rfl
    · simp at h
  | @concat es e hlog hfollows hsealed ih =>
    obtain rfl | ⟨fs, f, rfl⟩ := List.eq_nil_or_concat' fs
    · simp at h
    · obtain ⟨hflog, hffollows, hfsealed⟩ := hf.of_concat
      rw [head_concat, head_concat, Option.some.injEq] at h
      obtain ⟨hcontent, hbefore⟩ := hbind e (by simp) f (by simp) hsealed hfsealed h
      have hheads : head es = head fs := by rw [← hfollows, ← hffollows, hbefore]
      have hrest := ih hflog (hbind.subset (by simp) (by simp)) hheads
      obtain ⟨before, digest, content⟩ := e
      obtain ⟨before', digest', content'⟩ := f
      cases hcontent
      cases hbefore
      cases h
      rw [hrest]

end LinkedLog
