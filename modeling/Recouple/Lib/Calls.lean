import Mathlib
/-!
# Programs that call out and may be cut off

A program over a state `σ` makes one call after another; each call is one transaction on the state. A
`Faults` says which calls fail: the call is lost, or it takes effect and its answer is lost. Either way the
caller sees the call's failure, and a program that does not catch it stops there. A process that stops
between two calls leaves what it leaves when the later one is lost.

`Triple` is a Hoare triple with a postcondition for returning and one for failing.
-/

namespace Recouple

/-- How a call fails. -/
inductive Fault
  | lost
  | unacknowledged
deriving DecidableEq

/-- The calls that fail, by their position in the run. -/
abbrev Faults := Nat → Option Fault

/-- Every call answers. -/
def reliable : Faults := fun _ => none

/-- A program: the faults, the number of calls made so far and the state give the result, the calls made
and the state left. -/
def Calls (σ ε α : Type) := Faults → Nat → σ → Except ε α × Nat × σ

namespace Calls
variable {σ ε α β : Type}

instance : Monad (Calls σ ε) where
  pure a := fun _ n s => (.ok a, n, s)
  bind p f := fun faults n s =>
    match p faults n s with
    | (.ok a, n, s) => f a faults n s
    | (.error e, n, s) => (.error e, n, s)

def throw (e : ε) : Calls σ ε α := fun _ n s => (.error e, n, s)

/-- Pure code that may throw. -/
def lift (r : Except ε α) : Calls σ ε α := fun _ n s => (r, n, s)

/-- `try p catch handler`. -/
def handle (p : Calls σ ε α) (handler : ε → Calls σ ε α) : Calls σ ε α := fun faults n s =>
  match p faults n s with
  | (.ok a, n, s) => (.ok a, n, s)
  | (.error e, n, s) => handler e faults n s

/-- `try p catch handler`, where what is caught and what is thrown are of different types. -/
def recover {ε' : Type} (p : Calls σ ε α) (handler : ε → Calls σ ε' α) : Calls σ ε' α := fun faults n s =>
  match p faults n s with
  | (.ok a, n, s) => (.ok a, n, s)
  | (.error e, n, s) => handler e faults n s

/-- One call: a transaction on the state, and what the caller sees where it fails. -/
def call (failure : ε) (f : σ → Except ε α × σ) : Calls σ ε α := fun faults n s =>
  match faults n with
  | none => ((f s).1, n + 1, (f s).2)
  | some .lost => (.error failure, n + 1, s)
  | some .unacknowledged => (.error failure, n + 1, (f s).2)

/-- A call that reads. -/
def query (failure : ε) (f : σ → Except ε α) : Calls σ ε α := call failure fun s => (f s, s)

/-- A call that writes and always answers. -/
def update (failure : ε) (f : σ → σ) : Calls σ ε Unit := call failure fun s => (.ok (), f s)

/-- What is known of the state without a call. -/
def observe (f : σ → α) : Calls σ ε α := fun _ n s => (.ok (f s), n, s)

/-- Work done again where it fails, at most `n` times more, and not after a settled failure. -/
def retry (settled : ε → Bool) (work : Calls σ ε α) : Nat → Calls σ ε α
  | 0 => work
  | n + 1 => work.handle fun e => if settled e then throw e else work.retry settled n

/-- The state a run leaves. -/
def after (p : Calls σ ε α) (faults : Faults) (s : σ) : σ := (p faults 0 s).2.2

/-! ## Triples -/

/-- Of a run from a state with `P`: where it returns, `Q` holds of the value and the state left; where it
fails, `E` of the error and the state. -/
def Triple (faults : Faults) (P : σ → Prop) (p : Calls σ ε α) (Q : α → σ → Prop) (E : ε → σ → Prop) : Prop :=
  ∀ n s, P s →
    match p faults n s with
    | (.ok a, _, s') => Q a s'
    | (.error e, _, s') => E e s'

variable {faults : Faults} {P : σ → Prop} {p : Calls σ ε α} {Q : α → σ → Prop} {E : ε → σ → Prop}

theorem Triple.ok (h : Triple faults P p Q E) {n m : Nat} {s s' : σ} {a : α} (hs : P s)
    (hrun : p faults n s = (.ok a, m, s')) : Q a s' := by
  have := h n s hs
  rwa [hrun] at this

/-- What holds however a run ends holds of the state it leaves. -/
theorem Triple.after {I : σ → Prop} (h : Triple faults P p (fun _ => I) (fun _ => I)) {s : σ} (hs : P s) :
    I (after p faults s) := by
  have := h 0 s hs
  unfold Calls.after
  rcases hrun : p faults 0 s with ⟨r, m, s'⟩
  rw [hrun] at this
  cases r with
  | ok a => exact this
  | error e => exact this

theorem Triple.pre {P' : σ → Prop} (h : Triple faults P p Q E) (hP : ∀ s, P' s → P s) : Triple faults P' p Q E :=
  fun n s hs => h n s (hP s hs)

theorem Triple.post {Q' : α → σ → Prop} (h : Triple faults P p Q E) (hQ : ∀ a s, Q a s → Q' a s) :
    Triple faults P p Q' E := by
  intro n s hs
  have := h n s hs
  rcases hp : p faults n s with ⟨r, m, s'⟩
  rw [hp] at this
  cases r with
  | ok a => exact hQ a s' this
  | error e => exact this

theorem Triple.and {Q' : α → σ → Prop} {E' : ε → σ → Prop} (h : Triple faults P p Q E) (h' : Triple faults P p Q' E') :
    Triple faults P p (fun a s => Q a s ∧ Q' a s) (fun e s => E e s ∧ E' e s) := by
  intro n s hs
  have hq := h n s hs
  have hq' := h' n s hs
  rcases hp : p faults n s with ⟨r, m, s'⟩
  rw [hp] at hq hq'
  cases r with
  | ok a => exact ⟨hq, hq'⟩
  | error e => exact ⟨hq, hq'⟩

/-- Less is said of the failures. -/
theorem Triple.weaken {E' : ε → σ → Prop} (h : Triple faults P p Q E) (hE : ∀ e s, E e s → E' e s) :
    Triple faults P p Q E' := by
  intro n s hs
  have := h n s hs
  rcases hp : p faults n s with ⟨r, m, s'⟩
  rw [hp] at this
  cases r with
  | ok a => exact this
  | error e => exact hE e s' this

/-- What holds of no state in particular is assumed once. -/
theorem Triple.assume {A : Prop} (h : A → Triple faults P p Q E) : Triple faults (fun s => P s ∧ A) p Q E :=
  fun n s hs => h hs.2 n s hs.1

theorem Triple.pure {a : α} (h : ∀ s, P s → Q a s) : Triple faults P (Pure.pure a : Calls σ ε α) Q E :=
  fun _ s hs => h s hs

theorem Triple.throw {e : ε} (h : ∀ s, P s → E e s) : Triple faults P (Calls.throw e : Calls σ ε α) Q E :=
  fun _ s hs => h s hs

theorem Triple.lift {r : Except ε α} (hok : ∀ a, r = .ok a → ∀ s, P s → Q a s)
    (herror : ∀ e, r = .error e → ∀ s, P s → E e s) : Triple faults P (Calls.lift r : Calls σ ε α) Q E := by
  intro n s hs
  cases hr : r with
  | ok a => exact hok a hr s hs
  | error e => exact herror e hr s hs

theorem Triple.bind {f : α → Calls σ ε β} {M : α → σ → Prop} {R : β → σ → Prop} (hp : Triple faults P p M E)
    (hf : ∀ a, Triple faults (M a) (f a) R E) : Triple faults P (p >>= f) R E := by
  intro n s hs
  have h := hp n s hs
  rcases hrun : p faults n s with ⟨r, m, s'⟩
  rw [hrun] at h
  cases r with
  | ok a =>
    have hbind : (p >>= f) faults n s = f a faults m s' := by
      show (match p faults n s with | (.ok a, n, s) => f a faults n s | (.error e, n, s) => (.error e, n, s)) = _
      rw [hrun]
    rw [hbind]
    exact hf a m s' h
  | error e =>
    have hbind : (p >>= f) faults n s = (.error e, m, s') := by
      show (match p faults n s with | (.ok a, n, s) => f a faults n s | (.error e, n, s) => (.error e, n, s)) = _
      rw [hrun]
    rw [hbind]
    exact h

theorem Triple.handle {handler : ε → Calls σ ε α} {M : ε → σ → Prop} (hp : Triple faults P p Q M)
    (hh : ∀ e, Triple faults (M e) (handler e) Q E) : Triple faults P (Calls.handle p handler) Q E := by
  intro n s hs
  have h := hp n s hs
  rcases hrun : p faults n s with ⟨r, m, s'⟩
  rw [hrun] at h
  unfold Calls.handle
  rw [hrun]
  cases r with
  | ok a => exact h
  | error e => exact hh e m s' h

theorem Triple.recover {ε' : Type} {handler : ε → Calls σ ε' α} {E' : ε' → σ → Prop} (hp : Triple faults P p Q E)
    (hh : ∀ e, Triple faults (E e) (handler e) Q E') : Triple faults P (Calls.recover p handler) Q E' := by
  intro n s hs
  have h := hp n s hs
  rcases hrun : p faults n s with ⟨r, m, s'⟩
  rw [hrun] at h
  unfold Calls.recover
  rw [hrun]
  cases r with
  | ok a => exact h
  | error e => exact hh e m s' h

theorem Triple.observe {f : σ → α} (h : ∀ s, P s → Q (f s) s) : Triple faults P (Calls.observe f) Q E :=
  fun _ s hs => h s hs

/-- Work that fails where it may be done again keeps its judgement however often it is. -/
theorem Triple.retry {settled : ε → Bool} {n : Nat} (hp : Triple faults P p Q E) (hagain : ∀ e s, E e s → P s) :
    Triple faults P (p.retry settled n) Q E := by
  induction n with
  | zero => exact hp
  | succ n ih =>
    refine Triple.handle hp fun e => ?_
    split
    · exact Triple.throw fun s hs => hs
    · exact ih.pre (hagain e)

/-- A call, whatever becomes of it: `E` has to hold of the failure only where some call can fail. -/
theorem Triple.call {failure : ε} {f : σ → Except ε α × σ}
    (hf : ∀ s, P s → match (f s).1 with | .ok a => Q a (f s).2 | .error e => E e (f s).2)
    (hlost : faults ≠ reliable → ∀ s, P s → E failure s)
    (hunacknowledged : faults ≠ reliable → ∀ s, P s → E failure (f s).2) :
    Triple faults P (Calls.call failure f) Q E := by
  intro n s hs
  have h := hf s hs
  unfold Calls.call
  cases hn : faults n with
  | none =>
    revert h
    cases (f s).1 with
    | ok a => exact id
    | error e => exact id
  | some fault =>
    have hfaults : faults ≠ reliable := by
      rintro rfl
      cases hn
    cases fault with
    | lost => exact hlost hfaults s hs
    | unacknowledged => exact hunacknowledged hfaults s hs

/-- A call that keeps `P` keeps it whatever becomes of it. -/
theorem Triple.call_keeps {failure : ε} {f : σ → Except ε α × σ} (hf : ∀ s, P s → P (f s).2) :
    Triple faults P (Calls.call failure f) (fun _ => P) (fun _ => P) := by
  refine Triple.call (fun s hs => ?_) (fun _ s hs => hs) fun _ s hs => hf s hs
  cases (f s).1 with
  | ok a => exact hf s hs
  | error e => exact hf s hs

/-- A loop keeps what every pass keeps; the invariant knows the passes made. -/
theorem Triple.foldlM {γ : Type} {body : β → γ → Calls σ ε β} {I : List γ → β → σ → Prop} {xs : List γ} {b : β}
    (hbody : ∀ done x rest, xs = done ++ x :: rest → ∀ b,
      Triple faults (I done b) (body b x) (fun b s => I (done ++ [x]) b s) E) :
    Triple faults (I [] b) (xs.foldlM body b) (fun b s => I xs b s) E := by
  suffices h : ∀ (rest done : List γ) (b : β), xs = done ++ rest →
      Triple faults (I done b) (rest.foldlM body b) (fun b s => I xs b s) E from h xs [] b rfl
  intro rest
  induction rest with
  | nil =>
    rintro done b rfl
    rw [List.append_nil] at *
    exact Triple.pure fun s hs => hs
  | cons x rest ih =>
    intro done b hxs
    rw [List.foldlM_cons]
    refine Triple.bind (hbody done x rest hxs b) fun b' => ih (done ++ [x]) b' ?_
    rw [hxs, List.append_assoc, List.singleton_append]

/-- A loop that only acts keeps what every pass keeps. -/
theorem Triple.forM {γ : Type} {body : γ → Calls σ ε Unit} {I : σ → Prop} {xs : List γ}
    (hbody : ∀ x, Triple faults I (body x) (fun _ s => I s) E) :
    Triple faults I (xs.forM body) (fun _ s => I s) E := by
  induction xs with
  | nil => exact Triple.pure fun s hs => hs
  | cons x xs ih => exact Triple.bind (hbody x) fun _ => ih

end Calls
end Recouple
