import Recouple.Lib.Text

/-!
# Backtracking patterns

A pattern maps a place in a text to all the ways it can match there, in the order a backtracking engine tries
them: the first one is the match.

| regular expression    | here                               |
|-----------------------|------------------------------------|
| `[…]`                 | `one p`                            |
| `ab`                  | `do a; b`                          |
| `a|b`                 | `either a b`, `oneOf`              |
| `a?`, `a*`, `a+`      | `optional a`, `star a`, `plus a`   |
| `a{0,n}`              | `atMost a n`                       |
| `(a)`                 | `captured a`                       |
| `(?=a)`, `(?!a)`      | `ahead a`, `notAhead a`            |
| `(?<=[…])`, `(?<![…])`| `behind p`, `notBehind p`          |
| `text.matchAll`       | `matchAll`                         |
| `text.replace`        | `replace`                          |
-/

namespace Js

/-- A place in a text: what stands before it, nearest first, and what after it. -/
structure Place where
  before : Text
  after : Text
deriving DecidableEq

namespace Place

def start (text : Text) : Place := ⟨[], text⟩

def text (c : Place) : Text := c.before.reverse ++ c.after

def index (c : Place) : Nat := c.before.length

/-- The places from one on, to the end of the text. -/
def onward (before : Text) : Text → List Place
  | [] => [⟨before, []⟩]
  | x :: xs => ⟨before, x :: xs⟩ :: onward (x :: before) xs

/-- Every place of a text. -/
def all (text : Text) : List Place := onward [] text

end Place

/-- Reading `w` leads from `c` to `c'`. -/
structure Reads (c : Place) (w : Text) (c' : Place) : Prop where
  before : c'.before = w.reverse ++ c.before
  after : c.after = w ++ c'.after

def Pattern (α : Type) : Type := Place → List (α × Place)

instance : Monad Pattern where
  pure a := fun c => [(a, c)]
  bind m f := fun c => (m c).flatMap fun r => f r.1 r.2

namespace Pattern

variable {α β : Type}

/-- The match of the pattern at a place. -/
def first (m : Pattern α) (c : Place) : Option (α × Place) := (m c).head?

def one (p : Char → Bool) : Pattern Unit := fun c =>
  match c.after with
  | [] => []
  | x :: xs => if p x then [((), ⟨x :: c.before, xs⟩)] else []

/-- A word of lower-case letters under the flag `i`. -/
def word : Text → Pattern Unit
  | [] => pure ()
  | x :: xs => do one (fun c => c.toLower == x); word xs

def either (a b : Pattern α) : Pattern α := fun c => a c ++ b c

def oneOf (options : List (Pattern α)) : Pattern α := fun c => options.flatMap fun m => m c

def optional (m : Pattern α) : Pattern (Option α) := either (some <$> m) (pure none)

/-- `a*`: a round that reads nothing ends it. -/
def starFrom (m : Pattern α) : Nat → Pattern Unit
  | 0, c => [((), c)]
  | n + 1, c => ((m c).filter fun r => r.2.after.length < c.after.length).flatMap (fun r => starFrom m n r.2) ++ [((), c)]

def star (m : Pattern α) : Pattern Unit := fun c => starFrom m c.after.length c

def plus (m : Pattern α) : Pattern Unit := do
  let _ ← m
  star m

/-- Up to `n` rounds: `a{0,n}`. -/
def atMost (m : Pattern Unit) : Nat → Pattern Unit
  | 0 => pure ()
  | n + 1 => either (do m; atMost m n) (pure ())

/-- The text the pattern reads. -/
def captured (m : Pattern α) : Pattern Text := fun c =>
  (m c).map fun r => (c.after.take (c.after.length - r.2.after.length), r.2)

/-- A replacement worked out from the whole match. -/
def replacing (m : Pattern (Text → Text)) : Pattern Text := fun c =>
  (m c).map fun r => (r.1 (c.after.take (c.after.length - r.2.after.length)), r.2)

def ahead (m : Pattern α) : Pattern Unit := fun c => if (m c).isEmpty then [] else [((), c)]

def notAhead (m : Pattern α) : Pattern Unit := fun c => if (m c).isEmpty then [((), c)] else []

def behind (p : Char → Bool) : Pattern Unit := fun c => if c.before.head?.any p then [((), c)] else []

def notBehind (p : Char → Bool) : Pattern Unit := fun c => if c.before.head?.any p then [] else [((), c)]

/-- `^`. -/
def atStart : Pattern Unit := fun c => if c.before.isEmpty then [((), c)] else []

/-- `$`. -/
def atEnd : Pattern Unit := fun c => if c.after.isEmpty then [((), c)] else []

/-- `\b`. -/
def boundary (p : Char → Bool) : Pattern Unit := fun c =>
  if c.before.head?.any p != c.after.head?.any p then [((), c)] else []

def position : Pattern Nat := fun c => [(c.index, c)]

/-! ## What a pattern reads -/

section
variable {m : Pattern α} {c c' : Place}

@[simp] theorem mem_pure {a : α} {r : α × Place} : r ∈ (pure a : Pattern α) c ↔ r = (a, c) := List.mem_singleton

@[simp] theorem mem_bind {f : α → Pattern β} {r : β × Place} :
    r ∈ (m >>= f) c ↔ ∃ a d, (a, d) ∈ m c ∧ r ∈ f a d := by
  change r ∈ (m c).flatMap (fun r => f r.1 r.2) ↔ _
  simp only [List.mem_flatMap, Prod.exists]

@[simp] theorem mem_map {f : α → β} {r : β × Place} : r ∈ (f <$> m) c ↔ ∃ a d, (a, d) ∈ m c ∧ r = (f a, d) := by
  change r ∈ (m c).flatMap (fun r => [(f r.1, r.2)]) ↔ _
  simp only [List.mem_flatMap, List.mem_singleton, Prod.exists]

theorem mem_one {p : Char → Bool} {r : Unit × Place} :
    r ∈ one p c ↔ ∃ x xs, c.after = x :: xs ∧ p x = true ∧ r.2 = ⟨x :: c.before, xs⟩ := by
  unfold one
  constructor
  · intro h
    split at h
    · cases h
    · rename_i x xs hafter
      split at h
      · rename_i hx
        rw [List.mem_singleton] at h
        exact ⟨x, xs, hafter, hx, by rw [h]⟩
      · cases h
  · rintro ⟨x, xs, hafter, hx, hr⟩
    rw [hafter]
    dsimp only
    rw [if_pos hx, List.mem_singleton]
    exact Prod.ext rfl hr

@[simp] theorem mem_either {a b : Pattern α} {r : α × Place} : r ∈ either a b c ↔ r ∈ a c ∨ r ∈ b c := List.mem_append

@[simp] theorem mem_oneOf {options : List (Pattern α)} {r : α × Place} : r ∈ oneOf options c ↔ ∃ a ∈ options, r ∈ a c :=
  List.mem_flatMap

@[simp] theorem mem_optional {r : Option α × Place} :
    r ∈ optional m c ↔ (∃ a d, (a, d) ∈ m c ∧ r = (some a, d)) ∨ r = (none, c) := by
  simp only [optional, mem_either, mem_map, mem_pure]

@[simp] theorem mem_captured {r : Text × Place} : r ∈ captured m c ↔
    ∃ a d, (a, d) ∈ m c ∧ r = (c.after.take (c.after.length - d.after.length), d) := by
  simp only [captured, List.mem_map, Prod.exists]
  constructor
  · rintro ⟨a, d, hmem, rfl⟩
    exact ⟨a, d, hmem, rfl⟩
  · rintro ⟨a, d, hmem, rfl⟩
    exact ⟨a, d, hmem, rfl⟩

@[simp] theorem mem_ahead {r : Unit × Place} : r ∈ ahead m c ↔ m c ≠ [] ∧ r = ((), c) := by
  unfold ahead
  cases m c <;> simp

@[simp] theorem mem_notAhead {r : Unit × Place} : r ∈ notAhead m c ↔ m c = [] ∧ r = ((), c) := by
  unfold notAhead
  cases m c <;> simp

@[simp] theorem mem_notBehind {p : Char → Bool} {r : Unit × Place} :
    r ∈ notBehind p c ↔ c.before.head?.any p = false ∧ r = ((), c) := by
  unfold notBehind
  split <;> simp_all

@[simp] theorem mem_boundary {p : Char → Bool} {r : Unit × Place} :
    r ∈ boundary p c ↔ c.before.head?.any p ≠ c.after.head?.any p ∧ r = ((), c) := by
  unfold boundary
  split <;> simp_all

@[simp] theorem mem_position {r : Nat × Place} : r ∈ position c ↔ r = (c.index, c) := List.mem_singleton

end

/-! ## Places -/

end Pattern

theorem Place.getElem?_after (c : Place) (k : Nat) : c.text[c.index + k]? = c.after[k]? := by
  have hlength : c.before.reverse.length ≤ c.index + k := by
    rw [List.length_reverse]
    exact Nat.le_add_right _ _
  rw [Place.text, List.getElem?_append_right hlength, List.length_reverse, Place.index, Nat.add_sub_cancel_left]

theorem Place.getElem?_before (c : Place) {k : Nat} (hk : k < c.index) : c.text[c.index - 1 - k]? = c.before[k]? := by
  have hlength : c.index - 1 - k < c.before.reverse.length := by
    rw [List.length_reverse]
    unfold Place.index at hk ⊢
    omega
  rw [Place.text, List.getElem?_append_left hlength, List.getElem?_reverse (by simpa using hlength)]
  congr 1
  unfold Place.index at hk ⊢
  omega

/-- A place is where it is in its text. -/
theorem Place.eq_of_index {c d : Place} (htext : c.text = d.text) (hindex : c.index = d.index) : c = d := by
  obtain ⟨hbefore, hafter⟩ := List.append_inj htext (by rwa [List.length_reverse, List.length_reverse])
  cases c
  cases d
  rw [Place.mk.injEq]
  exact ⟨List.reverse_injective hbefore, hafter⟩

theorem Place.getElem?_head (c : Place) : c.text[c.index]? = c.after.head? := by
  rw [← Nat.add_zero c.index, Place.getElem?_after, List.head?_eq_getElem?]

namespace Reads

variable {c c' c'' : Place} {w w' : Text}

protected theorem refl (c : Place) : Reads c [] c := ⟨rfl, rfl⟩

protected theorem trans (h : Reads c w c') (h' : Reads c' w' c'') : Reads c (w ++ w') c'' where
  before := by rw [h'.before, h.before, List.reverse_append, List.append_assoc]
  after := by rw [h.after, h'.after, List.append_assoc]

theorem text (h : Reads c w c') : c'.text = c.text := by
  rw [Place.text, Place.text, h.before, h.after, List.reverse_append, List.reverse_reverse, List.append_assoc]

theorem index (h : Reads c w c') : c'.index = c.index + w.length := by
  rw [Place.index, Place.index, h.before, List.length_append, List.length_reverse, Nat.add_comm]

theorem length (h : Reads c w c') : c.after.length = w.length + c'.after.length := by
  rw [h.after, List.length_append]

/-- A text is read to one place. -/
theorem unique (h : Reads c w c') (h' : Reads c w c'') : c' = c'' := by
  cases c'
  cases c''
  have hbefore := h.before.trans h'.before.symm
  have hafter := List.append_cancel_left (h.after.symm.trans h'.after)
  simp only at hbefore hafter
  rw [hbefore, hafter]

/-- The last character read is the one before the place reached. -/
theorem last (h : Reads c w c') (hne : w ≠ []) : ∃ x xs, c'.before = x :: xs ∧ x ∈ w := by
  rcases List.eq_nil_or_concat w with hnil | ⟨t, l, hl⟩
  · exact absurd hnil hne
  · refine ⟨l, t.reverse ++ c.before, ?_, ?_⟩
    · rw [h.before, hl]
      simp
    · rw [hl]
      simp

/-- What stands between the two places is what is read. -/
theorem getElem? (h : Reads c w c') {p : Nat} (hp : c.index ≤ p) (hp' : p < c'.index) :
    c.text[p]? = w[p - c.index]? := by
  obtain ⟨k, rfl⟩ := Nat.exists_eq_add_of_le hp
  have hindex := h.index
  rw [Place.getElem?_after, h.after, Nat.add_sub_cancel_left, List.getElem?_append_left (by omega)]

/-- Of two places of a text, the first leads to the second. -/
theorem of_index_le (htext : c.text = c'.text) (h : c.index ≤ c'.index) : ∃ w, Reads c w c' := by
  have hlength : c.before.reverse.length ≤ c'.before.reverse.length := by
    rwa [List.length_reverse, List.length_reverse]
  rcases List.append_eq_append_iff.1 htext with ⟨w, hbefore, hafter⟩ | ⟨w, hbefore, hafter⟩
  · refine ⟨w, ⟨?_, hafter⟩⟩
    rw [← List.reverse_reverse c'.before, hbefore, List.reverse_append, List.reverse_reverse]
  · have hnil : w = [] := by
      rw [hbefore, List.length_append] at hlength
      exact List.length_eq_zero_iff.1 (by omega)
    subst hnil
    rw [List.append_nil] at hbefore
    exact ⟨[], ⟨(List.reverse_injective hbefore).symm, hafter.symm⟩⟩

/-- From one place to another there is one text to read. -/
theorem word (h : Reads c w c') (h' : Reads c w' c') : w = w' :=
  List.append_cancel_right (h.after.symm.trans h'.after)

/-- Of two places on one way, one is before the other. -/
theorem between {d : Place} {u v x : Text} (h : Reads c u d) (h' : Reads d v c'') (hx : Reads c x c')
    (hw : Reads c' w c'') : (∃ y, Reads c' y d ∧ w = y ++ v) ∨ (∃ y, Reads d y c' ∧ v = y ++ w) := by
  have hsame : u ++ v = x ++ w := List.append_cancel_right (by
    rw [← (h.trans h').after, ← (hx.trans hw).after])
  rcases List.append_eq_append_iff.1 hsame with ⟨y, rfl, rfl⟩ | ⟨y, rfl, rfl⟩
  · refine .inr ⟨y, ⟨?_, ?_⟩, rfl⟩
    · rw [hx.before, h.before, List.reverse_append, List.append_assoc]
    · rw [h'.after, hw.after, List.append_assoc]
  · refine .inl ⟨y, ⟨?_, ?_⟩, rfl⟩
    · rw [h.before, hx.before, List.reverse_append, List.append_assoc]
    · rw [hw.after, h'.after, List.append_assoc]

end Reads

namespace Pattern

variable {α β : Type}

/-- Whatever the pattern reads is of characters with `p`. -/
def Eats (p : Char → Prop) (m : Pattern α) : Prop :=
  ∀ c r, r ∈ m c → ∃ w, Reads c w r.2 ∧ ∀ x ∈ w, p x

section
variable {p : Char → Prop} {m : Pattern α}

theorem Eats.mono {q : Char → Prop} (h : Eats p m) (hpq : ∀ x, p x → q x) : Eats q m := fun c r hr =>
  let ⟨w, hw, hp⟩ := h c r hr
  ⟨w, hw, fun x hx => hpq x (hp x hx)⟩

theorem eats_stay (h : ∀ c r, r ∈ m c → r.2 = c) : Eats p m := by
  intro c r hr
  rw [h c r hr]
  exact ⟨[], .refl c, fun _ hx => absurd hx List.not_mem_nil⟩

theorem eats_pure (a : α) : Eats p (pure a : Pattern α) := eats_stay fun c r hr => by rw [mem_pure.1 hr]

theorem eats_notAhead : Eats p (notAhead m) := eats_stay fun c r hr => by rw [(mem_notAhead.1 hr).2]

theorem eats_ahead : Eats p (ahead m) := eats_stay fun c r hr => by rw [(mem_ahead.1 hr).2]

theorem eats_notBehind {q : Char → Bool} : Eats p (notBehind q) := eats_stay fun c r hr => by rw [(mem_notBehind.1 hr).2]

theorem eats_boundary {q : Char → Bool} : Eats p (boundary q) := eats_stay fun c r hr => by rw [(mem_boundary.1 hr).2]

theorem eats_one {q : Char → Bool} (h : ∀ x, q x = true → p x) : Eats p (one q) := by
  intro c r hr
  obtain ⟨x, xs, hafter, hx, hplace⟩ := mem_one.1 hr
  refine ⟨[x], ⟨?_, ?_⟩, fun y hy => ?_⟩
  · rw [hplace]
    rfl
  · rw [hplace, hafter]
    rfl
  · rw [List.mem_singleton.1 hy]
    exact h x hx

theorem eats_bind {f : α → Pattern β} (h : Eats p m) (hf : ∀ a, Eats p (f a)) : Eats p (m >>= f) := by
  intro c r hr
  obtain ⟨a, d, hd, hr⟩ := mem_bind.1 hr
  obtain ⟨w, hw, hpw⟩ := h c _ hd
  obtain ⟨v, hv, hpv⟩ := hf a d r hr
  refine ⟨w ++ v, hw.trans hv, fun x hx => ?_⟩
  rcases List.mem_append.1 hx with hx | hx
  · exact hpw x hx
  · exact hpv x hx

theorem eats_either {b : Pattern α} (h : Eats p m) (hb : Eats p b) : Eats p (either m b) := by
  intro c r hr
  rcases mem_either.1 hr with hr | hr
  · exact h c r hr
  · exact hb c r hr

theorem eats_optional (h : Eats p m) : Eats p (optional m) := by
  intro c r hr
  rcases mem_optional.1 hr with ⟨a, d, hd, rfl⟩ | rfl
  · exact h c _ hd
  · exact ⟨[], .refl c, fun _ hx => absurd hx List.not_mem_nil⟩

theorem eats_captured (h : Eats p m) : Eats p (captured m) := by
  intro c r hr
  obtain ⟨a, d, hd, rfl⟩ := mem_captured.1 hr
  exact h c _ hd

/-- What is captured is what is read. -/
theorem captured_eq (h : Eats p m) {c : Place} {r : Text × Place} (hr : r ∈ captured m c) : Reads c r.1 r.2 := by
  obtain ⟨a, d, hd, rfl⟩ := mem_captured.1 hr
  obtain ⟨w, hw, -⟩ := h c _ hd
  have htake : c.after.take (c.after.length - d.after.length) = w := by
    rw [hw.after, List.length_append, Nat.add_sub_cancel, List.take_left']
    rfl
  rw [htake]
  exact hw

/-! ## Repetition -/

theorem starFrom_fuel (m : Pattern α) : ∀ (n n' : Nat) (c : Place), c.after.length ≤ n → c.after.length ≤ n' →
    starFrom m n c = starFrom m n' c
  | 0, 0, _, _, _ => rfl
  | 0, n' + 1, c, h, _ => by
    have hnone : ((m c).filter fun r => r.2.after.length < c.after.length) = [] := by
      apply List.filter_eq_nil_iff.2
      intro r _
      rw [decide_eq_true_eq]
      omega
    rw [starFrom, starFrom, hnone, List.flatMap_nil, List.nil_append]
  | n + 1, 0, c, _, h => by
    have hnone : ((m c).filter fun r => r.2.after.length < c.after.length) = [] := by
      apply List.filter_eq_nil_iff.2
      intro r _
      rw [decide_eq_true_eq]
      omega
    rw [starFrom, starFrom, hnone, List.flatMap_nil, List.nil_append]
  | n + 1, n' + 1, c, h, h' => by
    rw [starFrom, starFrom]
    congr 1
    apply List.flatMap_congr
    intro r hr
    have hshort := (List.mem_filter.1 hr).2
    rw [decide_eq_true_eq] at hshort
    exact starFrom_fuel m n n' r.2 (by omega) (by omega)

theorem star_eq (m : Pattern α) (c : Place) : star m c =
    ((m c).filter fun r => r.2.after.length < c.after.length).flatMap (fun r => star m r.2) ++ [((), c)] := by
  unfold star
  rw [starFrom_fuel m c.after.length (c.after.length + 1) c le_rfl (Nat.le_succ _), starFrom]
  congr 1
  apply List.flatMap_congr
  intro r hr
  have hshort := (List.mem_filter.1 hr).2
  rw [decide_eq_true_eq] at hshort
  exact starFrom_fuel m _ _ r.2 (by omega) le_rfl

theorem mem_star {c : Place} {r : Unit × Place} : r ∈ star m c ↔
    (∃ d ∈ m c, d.2.after.length < c.after.length ∧ r ∈ star m d.2) ∨ r = ((), c) := by
  rw [star_eq, List.mem_append, List.mem_flatMap, List.mem_singleton]
  constructor
  · rintro (⟨d, hd, hr⟩ | hr)
    · obtain ⟨hmem, hshort⟩ := List.mem_filter.1 hd
      exact .inl ⟨d, hmem, of_decide_eq_true hshort, hr⟩
    · exact .inr hr
  · rintro (⟨d, hd, hshort, hr⟩ | hr)
    · exact .inl ⟨d, List.mem_filter.2 ⟨hd, decide_eq_true hshort⟩, hr⟩
    · exact .inr hr

/-- What holds of no round, and of one more, holds of all. -/
theorem star_induction {motive : Place → Place → Prop} (nil : ∀ c, motive c c)
    (step : ∀ c d e, d ∈ m c → motive d.2 e → motive c e) {c : Place} {r : Unit × Place} (hr : r ∈ star m c) :
    motive c r.2 := by
  induction hn : c.after.length using Nat.strong_induction_on generalizing c with
  | _ n ih =>
    rcases mem_star.1 hr with ⟨d, hd, hshort, hr⟩ | rfl
    · exact step c d r.2 hd (ih d.2.after.length (hn ▸ hshort) hr rfl)
    · exact nil c

theorem eats_star (h : Eats p m) : Eats p (star m) := by
  intro c r hr
  refine star_induction (motive := fun c d => ∃ w, Reads c w d ∧ ∀ x ∈ w, p x) (fun c => ?_) (fun c d e hd ih => ?_) hr
  · exact ⟨[], .refl c, fun _ hx => absurd hx List.not_mem_nil⟩
  · obtain ⟨w, hw, hpw⟩ := h c d hd
    obtain ⟨v, hv, hpv⟩ := ih
    refine ⟨w ++ v, hw.trans hv, fun x hx => ?_⟩
    rcases List.mem_append.1 hx with hx | hx
    · exact hpw x hx
    · exact hpv x hx

theorem star_ne_nil (m : Pattern α) (c : Place) : star m c ≠ [] := by
  rw [star_eq]
  exact List.append_ne_nil_of_right_ne_nil _ (List.cons_ne_nil _ _)

end

/-! ## The match -/

section
variable {m : Pattern α} {c : Place}

theorem mem_of_first {r : α × Place} (h : first m c = some r) : r ∈ m c := List.mem_of_head? h

theorem first_eq_none : first m c = none ↔ m c = [] := List.head?_eq_none_iff

theorem first_of_ne_nil (h : m c ≠ []) : ∃ r, first m c = some r := by
  cases hm : m c with
  | nil => exact absurd hm h
  | cons r rs => exact ⟨r, by rw [first, hm, List.head?_cons]⟩

theorem head_flatMap {γ δ : Type} {l : List γ} {g : γ → List δ} {b : δ} (h : (l.flatMap g).head? = some b) :
    ∃ a ∈ l, (g a).head? = some b := by
  induction l with
  | nil => cases h
  | cons a l ih =>
    rw [List.flatMap_cons, List.head?_append] at h
    cases hg : (g a).head? with
    | some b' =>
      rw [hg] at h
      exact ⟨a, List.mem_cons_self, by rw [hg]; exact h⟩
    | none =>
      rw [hg] at h
      obtain ⟨a', ha', hb⟩ := ih h
      exact ⟨a', List.mem_cons_of_mem _ ha', hb⟩

theorem head_flatMap_total {γ δ : Type} {l : List γ} {g : γ → List δ} (h : ∀ a, g a ≠ []) :
    (l.flatMap g).head? = l.head?.bind fun a => (g a).head? := by
  cases l with
  | nil => rfl
  | cons a l => rw [List.flatMap_cons, List.head?_append_of_ne_nil _ (h a), List.head?_cons, Option.bind_some]

/-- The match goes on from one of the ways the first part matches. -/
theorem first_bind {f : α → Pattern β} {r : β × Place} (h : first (m >>= f) c = some r) :
    ∃ a d, (a, d) ∈ m c ∧ first (f a) d = some r := by
  obtain ⟨⟨a, d⟩, hd, hr⟩ := head_flatMap h
  exact ⟨a, d, hd, hr⟩

/-- Where the second part matches everywhere, the match goes on from the match of the first. -/
theorem first_bind_total {f : α → Pattern β} (hf : ∀ a d, f a d ≠ []) :
    first (m >>= f) c = (first m c).bind fun r => first (f r.1) r.2 := head_flatMap_total fun r => hf r.1 r.2

theorem first_captured : first (captured m) c =
    (first m c).map fun r => (c.after.take (c.after.length - r.2.after.length), r.2) := List.head?_map

theorem first_either {a b : Pattern α} {r : α × Place} (h : first (either a b) c = some r) :
    first a c = some r ∨ (a c = [] ∧ first b c = some r) := by
  unfold first either at h
  rw [List.head?_append] at h
  cases ha : a c with
  | nil =>
    rw [ha] at h
    exact .inr ⟨rfl, h⟩
  | cons r' rs =>
    rw [ha] at h
    exact .inl (by rw [first, ha]; exact h)

/-- A repetition goes on as long as it can. -/
theorem first_star {Q : Place → Prop} (hshort : ∀ c r, r ∈ m c → r.2.after.length < c.after.length)
    (hstep : ∀ c r, first m c = some r → Q r.2) {r : Unit × Place} (hr : first (star m) c = some r) (hc : Q c) :
    Q r.2 ∧ m r.2 = [] := by
  induction hn : c.after.length using Nat.strong_induction_on generalizing c with
  | _ n ih =>
    have hall : ((m c).filter fun r => r.2.after.length < c.after.length) = m c :=
      List.filter_eq_self.2 fun r hr => decide_eq_true (hshort c r hr)
    rw [first, star_eq, hall, List.head?_append] at hr
    cases hm : m c with
    | nil =>
      rw [hm] at hr
      cases hr
      exact ⟨hc, hm⟩
    | cons d ds =>
      have hd : first m c = some d := by rw [first, hm, List.head?_cons]
      have hhead : ((m c).flatMap fun r => star m r.2).head? = first (star m) d.2 := by
        have htotal : ∀ r : α × Place, star m r.2 ≠ [] := fun r => star_ne_nil m r.2
        rw [head_flatMap_total htotal, hm]
        rfl
      rw [hhead] at hr
      obtain ⟨e, he⟩ := first_of_ne_nil (star_ne_nil m d.2)
      rw [he] at hr
      cases hr
      exact ih _ (hn ▸ hshort c d (mem_of_first hd)) he (hstep c d hd) rfl

end

/-! ## A whole text -/

/-- One match: what was captured, and the places where it starts and ends. -/
structure Match (α : Type) where
  value : α
  start : Place
  stop : Place

/-- `text.matchAll(m)`, from a place on; an empty match moves on by a character. -/
def scan (m : Pattern α) : Nat → Place → List (Match α)
  | 0, _ => []
  | n + 1, c =>
    match first m c, c.after with
    | none, [] => []
    | none, x :: xs => scan m n ⟨x :: c.before, xs⟩
    | some (a, d), after =>
      ⟨a, c, d⟩ ::
        if d.after.length < after.length then scan m n d
        else
          match after with
          | [] => []
          | x :: xs => scan m n ⟨x :: c.before, xs⟩

def matchAll (m : Pattern α) (text : Text) : List (Match α) := scan m (text.length + 1) (.start text)

/-- `text.replace(m, …)` under the flag `g`, from a place on: the pattern's value is what replaces the match. -/
def replaceFrom (m : Pattern Text) : Nat → Place → Text
  | 0, c => c.after
  | n + 1, c =>
    match first m c, c.after with
    | none, [] => []
    | none, x :: xs => x :: replaceFrom m n ⟨x :: c.before, xs⟩
    | some (a, d), after =>
      a ++
        if d.after.length < after.length then replaceFrom m n d
        else
          match after with
          | [] => []
          | x :: xs => x :: replaceFrom m n ⟨x :: c.before, xs⟩

def replace (m : Pattern Text) (text : Text) : Text := replaceFrom m (text.length + 1) (.start text)

/-- The matches of a pattern that reads something, found from left to right. -/
inductive Scans (m : Pattern α) : Place → List (Match α) → Prop
  | done {c : Place} : first m c = none → c.after = [] → Scans m c []
  | skip {c : Place} {x : Char} {xs : Text} {found : List (Match α)} : first m c = none → c.after = x :: xs →
      Scans m ⟨x :: c.before, xs⟩ found → Scans m c found
  | hit {c d : Place} {a : α} {found : List (Match α)} : first m c = some (a, d) → Scans m d found →
      Scans m c (⟨a, c, d⟩ :: found)

theorem scan_scans {m : Pattern α} (hshort : ∀ c r, r ∈ m c → r.2.after.length < c.after.length) :
    ∀ (n : Nat) (c : Place), c.after.length < n → Scans m c (scan m n c)
  | 0, _, h => absurd h (Nat.not_lt_zero _)
  | n + 1, c, h => by
    unfold scan
    split
    · rename_i hfirst hafter
      exact .done hfirst hafter
    · rename_i x xs hfirst hafter
      rw [hafter, List.length_cons] at h
      exact .skip hfirst hafter (scan_scans hshort n _ (by dsimp only; omega))
    · rename_i a d hfirst
      have hlt : d.after.length < c.after.length := hshort c _ (mem_of_first hfirst)
      rw [if_pos hlt]
      exact .hit hfirst (scan_scans hshort n d (by omega))

theorem matchAll_scans {m : Pattern α} (hshort : ∀ c r, r ∈ m c → r.2.after.length < c.after.length) (text : Text) :
    Scans m (.start text) (matchAll m text) := scan_scans hshort _ _ (Nat.lt_succ_self _)

end Pattern

end Js
