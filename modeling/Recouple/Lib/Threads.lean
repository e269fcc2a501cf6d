import Mathlib

/-!
# Threads on a shared state

A `Thread` makes one atomic step after another on a shared state `σ`; what a step may answer and leave is a
relation, so a step may be blocked, and its answer may be the environment's choice. A `Config` is a state with a
thread for each `i : ι`; in a step of it one thread steps.

`Meets` is a rely-guarantee judgement: while the others stay within `R`, each step of the thread is within `G`, and
it ends with `Q`.

* **`Config.sound_of_reaches`**: threads that meet their judgements, each guarantee within the others' relies, do so
  however they are interleaved, and what every guarantee keeps holds in every state reached.
-/

namespace Recouple

inductive Thread (σ ε α : Type) : Type 1
  | done (r : Except ε α)
  | step {β : Type} (act : σ → β → σ → Prop) (k : β → Thread σ ε α)

namespace Thread
variable {σ ε α β : Type}

protected def bind : Thread σ ε α → (α → Thread σ ε β) → Thread σ ε β
  | .done (.ok a), f => f a
  | .done (.error e), _ => .done (.error e)
  | .step act k, f => .step act fun b => (k b).bind f

instance : Monad (Thread σ ε) where
  pure a := .done (.ok a)
  bind := Thread.bind

def throw (e : ε) : Thread σ ε α := .done (.error e)

/-- One atomic step that answers. -/
def atomic (act : σ → β → σ → Prop) : Thread σ ε β := .step act fun b => .done (.ok b)

/-- One atomic step that answers or throws. -/
def attempt (act : σ → Except ε β → σ → Prop) : Thread σ ε β := .step act .done

/-- `p`, then `q`, however `p` ends. -/
def ending : Thread σ ε α → Thread σ ε Unit → Thread σ ε α
  | .done r, q => q.bind fun _ => .done r
  | .step act k, q => .step act fun b => (k b).ending q

/-- `p`, and what the handler makes of what it throws. -/
def recover {ε' : Type} : Thread σ ε α → (ε → Thread σ ε' α) → Thread σ ε' α
  | .done (.ok a), _ => .done (.ok a)
  | .done (.error e), handler => handler e
  | .step act k, handler => .step act fun b => (k b).recover handler

/-- Work done again where it fails, at most `n` times more, and not after a settled failure. -/
def retry (settled : ε → Bool) (work : Thread σ ε α) : Nat → Thread σ ε α
  | 0 => work
  | n + 1 => work.recover fun e => if settled e then throw e else work.retry settled n

/-- A step of a thread. -/
inductive Acts : Thread σ ε α → σ → Thread σ ε α → σ → Prop
  | intro {β : Type} {act : σ → β → σ → Prop} {k : β → Thread σ ε α} {s : σ} {b : β} {s' : σ} (h : act s b s') :
    Acts (.step act k) s (k b) s'

/-- Steps of a thread that runs alone. -/
inductive Runs : Thread σ ε α → σ → Thread σ ε α → σ → Prop
  | refl {t : Thread σ ε α} {s : σ} : Runs t s t s
  | step {t t' t'' : Thread σ ε α} {s s' s'' : σ} (h : Acts t s t' s') (rest : Runs t' s' t'' s'') : Runs t s t'' s''

theorem Runs.act {act : σ → β → σ → Prop} {k : β → Thread σ ε α} {s s' s'' : σ} {t : Thread σ ε α} (b : β)
    (h : act s b s') (rest : (k b).Runs s' t s'') : Runs (.step act k) s t s'' :=
  .step (.intro h) rest

/-! ## Rely and guarantee -/

/-- What the others do keeps `A`. -/
def Stable (R : σ → σ → Prop) (A : σ → Prop) : Prop := ∀ s s', A s → R s s' → A s'

theorem Stable.and {R : σ → σ → Prop} {A B : σ → Prop} (hA : Stable R A) (hB : Stable R B) :
    Stable R fun s => A s ∧ B s :=
  fun s s' hs hR => ⟨hA s s' hs.1 hR, hB s s' hs.2 hR⟩

theorem Stable.const {R : σ → σ → Prop} {p : Prop} : Stable R fun _ => p := fun _ _ hs _ => hs

/-- How a thread ends: with a value, or by throwing. -/
def Ends (P : α → σ → Prop) (E : σ → Prop) : Except ε α → σ → Prop
  | .ok a => P a
  | .error _ => E

theorem Stable.ends {R : σ → σ → Prop} {P : α → σ → Prop} {E : σ → Prop} (hP : ∀ a, Stable R (P a)) (hE : Stable R E)
    (r : Except ε α) : Stable R (Ends P E r) := by
  cases r with
  | ok a => exact hP a
  | error e => exact hE

/-- From states with `A`: each step is within `G` while the others stay within `R`, and the end is with `Q`. -/
def Meets (R G : σ → σ → Prop) (Q : Except ε α → σ → Prop) : Thread σ ε α → (σ → Prop) → Prop
  | .done r, A => ∀ s, A s → Q r s
  | .step act k, A => ∀ b, (∀ s s', A s → act s b s' → G s s') ∧
      ∃ B : σ → Prop, Stable R B ∧ (∀ s s', A s → act s b s' → B s') ∧ (k b).Meets R G Q B

variable {R G : σ → σ → Prop} {Q : Except ε α → σ → Prop} {A : σ → Prop}

theorem Meets.mono {t : Thread σ ε α} {A' : σ → Prop} (h : t.Meets R G Q A) (hA : ∀ s, A' s → A s) :
    t.Meets R G Q A' := by
  cases t with
  | done r => exact fun s hs => h s (hA s hs)
  | step act k =>
    intro b
    obtain ⟨hG, B, hB, hpost, hk⟩ := h b
    exact ⟨fun s s' hs => hG s s' (hA s hs), B, hB, fun s s' hs => hpost s s' (hA s hs), hk⟩

theorem Meets.post {t : Thread σ ε α} {Q' : Except ε α → σ → Prop} (h : t.Meets R G Q A)
    (hQ : ∀ r s, Q r s → Q' r s) : t.Meets R G Q' A := by
  induction t generalizing A with
  | done r => exact fun s hs => hQ r s (h s hs)
  | step act k ih =>
    intro b
    obtain ⟨hG, B, hB, hpost, hk⟩ := h b
    exact ⟨hG, B, hB, hpost, ih b hk⟩

/-- What holds of no state in particular is assumed once. -/
theorem Meets.assume {t : Thread σ ε α} {p : Prop} (h : p → t.Meets R G Q A) : t.Meets R G Q fun s => A s ∧ p := by
  by_cases hp : p
  · exact (h hp).mono fun s hs => hs.1
  · have hnever : t.Meets R G Q fun _ => False := by
      clear h
      induction t with
      | done r => exact fun s hs => hs.elim
      | step act k ih =>
        exact fun b => ⟨fun s s' hs => hs.elim, fun _ => False, fun _ _ hs => hs.elim, fun s s' hs => hs.elim, ih b⟩
    exact hnever.mono fun s hs => hp hs.2

theorem Meets.pure {a : α} (h : ∀ s, A s → Q (.ok a) s) : Meets R G Q (Pure.pure a : Thread σ ε α) A := h

theorem Meets.throw {e : ε} (h : ∀ s, A s → Q (.error e) s) : Meets R G Q (Thread.throw e : Thread σ ε α) A := h

/-- What follows starts from what the first thread ends with. -/
theorem Meets.bind {p : Thread σ ε α} {f : α → Thread σ ε β} {Q' : Except ε β → σ → Prop} (hp : p.Meets R G Q A)
    (hok : ∀ a, (f a).Meets R G Q' (Q (.ok a))) (herr : ∀ e s, Q (.error e) s → Q' (.error e) s) :
    (p >>= f).Meets R G Q' A := by
  change (p.bind f).Meets R G Q' A
  induction p generalizing A with
  | done r =>
    cases r with
    | ok a => exact (hok a).mono hp
    | error e => exact fun s hs => herr e s (hp s hs)
  | step act k ih =>
    intro b
    obtain ⟨hG, B, hB, hpost, hk⟩ := hp b
    exact ⟨hG, B, hB, hpost, ih b hk⟩

theorem Meets.ending {p : Thread σ ε α} {q : Thread σ ε Unit} {Q' : Except ε α → σ → Prop} (hp : p.Meets R G Q A)
    (hq : ∀ r, q.Meets R G (fun r' s => r' = .ok () ∧ Q' r s) (Q r)) : (p.ending q).Meets R G Q' A := by
  induction p generalizing A with
  | done r =>
    refine Meets.bind ((hq r).mono hp) (fun _ => fun s hs => hs.2) fun e s hs => ?_
    cases hs.1
  | step act k ih =>
    intro b
    obtain ⟨hG, B, hB, hpost, hk⟩ := hp b
    exact ⟨hG, B, hB, hpost, ih b hk⟩

/-- The handler starts from what the first thread throws with. -/
theorem Meets.recover {ε' : Type} {p : Thread σ ε α} {handler : ε → Thread σ ε' α} {Q' : Except ε' α → σ → Prop}
    (hp : p.Meets R G Q A) (hok : ∀ a s, Q (.ok a) s → Q' (.ok a) s)
    (herr : ∀ e, (handler e).Meets R G Q' (Q (.error e))) : (p.recover handler).Meets R G Q' A := by
  induction p generalizing A with
  | done r =>
    cases r with
    | ok a => exact fun s hs => hok a s (hp s hs)
    | error e => exact (herr e).mono hp
  | step act k ih =>
    intro b
    obtain ⟨hG, B, hB, hpost, hk⟩ := hp b
    exact ⟨hG, B, hB, hpost, ih b hk⟩

/-- Work that fails where it may start from may be done again. -/
theorem Meets.retry {settled : ε → Bool} {work : Thread σ ε α} (hwork : work.Meets R G Q A)
    (hagain : ∀ e s, Q (.error e) s → A s) (n : Nat) : (work.retry settled n).Meets R G Q A := by
  induction n with
  | zero => exact hwork
  | succ n ih =>
    refine hwork.recover (fun _ _ => id) fun e => ?_
    split
    · exact Meets.throw fun s hs => hs
    · exact ih.mono (hagain e)

/-- An atomic step, with what holds after it. -/
theorem Meets.atomic {act : σ → β → σ → Prop} {Q : Except ε β → σ → Prop} (hG : ∀ s b s', A s → act s b s' → G s s')
    (hstable : ∀ b, Stable R (Q (.ok b))) (hpost : ∀ s b s', A s → act s b s' → Q (.ok b) s') :
    Meets R G Q (Thread.atomic act : Thread σ ε β) A :=
  fun b => ⟨fun s s' => hG s b s', Q (.ok b), hstable b, fun s s' => hpost s b s', fun _ hs => hs⟩

theorem Meets.attempt {act : σ → Except ε β → σ → Prop} {Q : Except ε β → σ → Prop}
    (hG : ∀ s b s', A s → act s b s' → G s s') (hstable : ∀ r, Stable R (Q r))
    (hpost : ∀ s r s', A s → act s r s' → Q r s') : Meets R G Q (Thread.attempt act : Thread σ ε β) A :=
  fun r => ⟨fun s s' => hG s r s', Q r, hstable r, fun s s' => hpost s r s', fun _ hs => hs⟩

end Thread

/-! ## Interleavings -/

structure Config (ι σ ε α : Type) where
  shared : σ
  threads : ι → Thread σ ε α

namespace Config
variable {ι σ ε α : Type} [DecidableEq ι]

/-- One thread steps. -/
inductive Step : Config ι σ ε α → Config ι σ ε α → Prop
  | of {c : Config ι σ ε α} (i : ι) {t : Thread σ ε α} {s : σ} (h : (c.threads i).Acts c.shared t s) :
    Step c ⟨s, Function.update c.threads i t⟩

def Reaches : Config ι σ ε α → Config ι σ ε α → Prop := Relation.ReflTransGen Step

/-- A thread runs while the others wait. -/
theorem reaches_of_runs {c : Config ι σ ε α} {i : ι} {t : Thread σ ε α} {s : σ}
    (h : (c.threads i).Runs c.shared t s) : c.Reaches ⟨s, Function.update c.threads i t⟩ := by
  generalize hp : c.threads i = p at h
  generalize hs : c.shared = s₀ at h
  induction h generalizing c with
  | refl =>
    rw [← hp, ← hs, Function.update_eq_self]
    exact Relation.ReflTransGen.refl
  | @step t t' t'' s s' s'' hact rest ih =>
    subst hp hs
    refine Relation.ReflTransGen.head (Step.of i hact) ?_
    have hrest := @ih ⟨s', Function.update c.threads i t'⟩ (Function.update_self i t' c.threads) rfl
    rwa [Function.update_idem] at hrest

/-- Each thread meets its judgement from where it is. -/
def Sound (R G : ι → σ → σ → Prop) (Q : ι → Except ε α → σ → Prop) (c : Config ι σ ε α) : Prop :=
  ∀ i, ∃ A : σ → Prop, Thread.Stable (R i) A ∧ A c.shared ∧ (c.threads i).Meets (R i) (G i) (Q i) A

variable {R G : ι → σ → σ → Prop} {Q : ι → Except ε α → σ → Prop} {c c' : Config ι σ ε α}

/-- A step of sound threads is within a guarantee, and leaves them sound. -/
theorem Sound.step (hGR : ∀ i j, i ≠ j → ∀ s s', G i s s' → R j s s') (h : c.Sound R G Q) (hstep : Step c c') :
    c'.Sound R G Q ∧ ∃ i, G i c.shared c'.shared := by
  obtain ⟨i, hact⟩ := hstep
  obtain ⟨A, -, hA, hmeets⟩ := h i
  generalize hthread : c.threads i = p at hact hmeets
  obtain ⟨hact⟩ := hact
  obtain ⟨hG, B, hB, hpost, hk⟩ := hmeets _
  have hg := hG _ _ hA hact
  refine ⟨fun j => ?_, i, hg⟩
  by_cases hij : j = i
  · subst hij
    refine ⟨B, hB, hpost _ _ hA hact, ?_⟩
    simpa only [Function.update_self] using hk
  · obtain ⟨A', hstable, hA', hmeets'⟩ := h j
    refine ⟨A', hstable, hstable _ _ hA' (hGR i j (Ne.symm hij) _ _ hg), ?_⟩
    simpa only [Function.update_of_ne hij] using hmeets'

/-- **Sound threads stay sound**, and what every guarantee keeps holds wherever they get. -/
theorem sound_of_reaches (hGR : ∀ i j, i ≠ j → ∀ s s', G i s s' → R j s s') {I : σ → Prop}
    (hI : ∀ i s s', G i s s' → I s → I s') (h : c.Sound R G Q) (hinit : I c.shared) (hreach : c.Reaches c') :
    c'.Sound R G Q ∧ I c'.shared := by
  induction hreach with
  | refl => exact ⟨h, hinit⟩
  | tail _ hstep ih =>
    obtain ⟨hsound, i, hg⟩ := ih.1.step hGR hstep
    exact ⟨hsound, hI i _ _ hg ih.2⟩

omit [DecidableEq ι] in
/-- A thread that has ended did so with its postcondition. -/
theorem Sound.done {i : ι} {r : Except ε α} (h : c.Sound R G Q) (hdone : c.threads i = .done r) : Q i r c.shared := by
  obtain ⟨A, -, hA, hmeets⟩ := h i
  rw [hdone] at hmeets
  exact hmeets _ hA

end Config

end Recouple
