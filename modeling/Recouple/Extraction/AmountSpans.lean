import Recouple.Extraction.PrintedAmounts

/-!
# Each number of a text is read whole

A match of `amountPattern` is a lead without digits, one number, and a trail without digits (`Parts`). The number
ends where no digit and no group follows (`number_end`), and the next match starts where none goes on (`Apart`).

* **`digit_spanned`**: every digit of a text is in one span of `printedAmounts`, and in its number.
* **`number_whole`**: no digit is next to a number, and no point or comma joins it to one.
* **`number_maximal`**: no number printed in the text has it as a proper part.
-/

namespace Recouple.Quotes
open Js Js.Pattern

/-! ## Digits and marks -/

/-- Neither a digit nor a point or comma. -/
def Bland (c : Char) : Prop := c.isDigit = false ∧ isMark c = false

instance : DecidablePred Bland := fun c => inferInstanceAs (Decidable (c.isDigit = false ∧ isMark c = false))

theorem not_isMark {c : Char} (h : c.isDigit = true) : isMark c = false := by
  unfold isMark
  rw [Bool.or_eq_false_iff, beq_eq_false_iff_ne, beq_eq_false_iff_ne]
  constructor
  · rintro rfl
    cases h
  · rintro rfl
    cases h

theorem bland_of_isSpace {c : Char} (h : isSpace c = true) : Bland c := by
  constructor
  · by_contra hdigit
    rw [isSpace_of_isDigit (Bool.eq_true_of_not_eq_false hdigit)] at h
    cases h
  · unfold isMark
    rw [Bool.or_eq_false_iff, beq_eq_false_iff_ne, beq_eq_false_iff_ne]
    constructor
    · rintro rfl
      cases h
    · rintro rfl
      cases h

theorem bland_of_isMinus {c : Char} (h : isMinus c = true) : Bland c := by
  constructor
  · by_contra hdigit
    have hrange : 48 ≤ c.toNat ∧ c.toNat ≤ 57 := by
      simpa [Char.isDigit, UInt32.le_iff_toNat_le] using hdigit
    unfold isMinus at h
    simp only [Bool.or_eq_true, beq_iff_eq, Bool.and_eq_true, decide_eq_true_eq] at h
    rcases h with (rfl | h) | h
    · exact absurd hrange.1 (by decide)
    · omega
    · omega
  · unfold isMark
    rw [Bool.or_eq_false_iff, beq_eq_false_iff_ne, beq_eq_false_iff_ne]
    constructor
    · rintro rfl
      cases h
    · rintro rfl
      cases h

theorem bland_of_eq {c x : Char} (hx : Bland x) (h : (c == x) = true) : Bland c := by
  rw [beq_iff_eq.1 h]
  exact hx

/-- A letter of a word is no digit. -/
theorem bland_of_toLower {c x : Char} (hx : Bland x) (h : (c.toLower == x) = true) : Bland c := by
  have hlower : c.toLower = x := beq_iff_eq.1 h
  by_cases hupper : c.isUpper = true
  · have hrange : 65 ≤ c.toNat ∧ c.toNat ≤ 90 := by
      simpa [Char.isUpper, UInt32.le_iff_toNat_le] using hupper
    constructor
    · by_contra hdigit
      have hdigits : 48 ≤ c.toNat ∧ c.toNat ≤ 57 := by
        simpa [Char.isDigit, UInt32.le_iff_toNat_le] using hdigit
      omega
    · unfold isMark
      rw [Bool.or_eq_false_iff, beq_eq_false_iff_ne, beq_eq_false_iff_ne]
      constructor
      · rintro rfl
        cases hupper
      · rintro rfl
        cases hupper
  · have hsame : c.toLower = c := Char.toLower_eq_of_not_isUpper (by simpa using hupper)
    rw [← hsame, hlower]
    exact hx

/-! ## What the parts of the pattern read -/

theorem eats_word {p : Char → Prop} : ∀ (t : Text), (∀ c x, x ∈ t → (c.toLower == x) = true → p c) → Eats p (word t)
  | [], _ => eats_pure ()
  | x :: xs, h => eats_bind (eats_one fun c hc => h c x List.mem_cons_self hc) fun _ =>
      eats_word xs fun c y hy => h c y (List.mem_cons_of_mem _ hy)

theorem eats_minus : Eats Bland (captured (one isMinus)) := eats_captured (eats_one fun _ => bland_of_isMinus)

theorem eats_single {x : Char} (hx : Bland x) : Eats Bland (one (· == x)) := eats_one fun _ => bland_of_eq hx

theorem eats_minusBefore (L : LetterClass) : Eats Bland (minusBefore L) := by
  refine eats_bind eats_notBehind fun _ => eats_bind eats_minus fun _ => ?_
  exact eats_bind (eats_optional (eats_captured (eats_single (by decide)))) fun _ => eats_pure _

theorem eats_dollar : Eats Bland dollar := by
  refine eats_bind (eats_captured (eats_bind (eats_single (by decide)) fun _ => ?_)) fun _ => ?_
  · exact eats_optional (eats_single (by decide))
  · exact eats_bind (eats_optional eats_minus) fun _ => eats_pure _

theorem eats_lead (L : LetterClass) : Eats Bland (lead L) := by
  refine eats_bind (eats_optional (eats_captured (eats_single (by decide)))) fun _ => ?_
  exact eats_bind (eats_optional (eats_minusBefore L)) fun _ => eats_bind (eats_optional eats_dollar) fun _ => eats_pure _

theorem eats_trail : Eats Bland trail := by
  have hword : ∀ t : Text, (∀ x ∈ t, Bland x) → Eats Bland (word t) := fun t ht =>
    eats_word t fun _ _ hx => bland_of_toLower (ht _ hx)
  refine eats_bind (eats_optional (eats_captured (eats_single (by decide)))) fun _ => ?_
  refine eats_bind (eats_optional ?_) fun _ => eats_bind (eats_optional ?_) fun _ => eats_pure _
  · exact eats_bind eats_minus fun _ => eats_bind eats_notAhead fun _ => eats_pure _
  · refine eats_captured (eats_bind (eats_optional (eats_one fun _ => bland_of_isSpace)) fun _ => ?_)
    refine eats_bind (eats_either (hword _ ?_) (hword _ ?_)) fun _ => eats_boundary
    · intro x hx
      simp only [String.reduceToList, List.mem_cons, List.not_mem_nil, or_false] at hx
      rcases hx with rfl | rfl <;> decide
    · intro x hx
      simp only [String.reduceToList, List.mem_cons, List.not_mem_nil, or_false] at hx
      rcases hx with rfl | rfl <;> decide

/-! ## Where a number ends -/

/-- The place is after a digit. -/
def AfterDigit (c : Place) : Prop := ∃ x xs, c.before = x :: xs ∧ x.isDigit = true

theorem mem_digit {c : Place} {r : Unit × Place} : r ∈ digit c ↔
    ∃ x xs, c.after = x :: xs ∧ x.isDigit = true ∧ r.2 = ⟨x :: c.before, xs⟩ := mem_one

theorem digit_ne_nil {c : Place} : digit c ≠ [] ↔ ∃ x xs, c.after = x :: xs ∧ x.isDigit = true := by
  constructor
  · intro h
    obtain ⟨r, hr⟩ := List.exists_mem_of_ne_nil _ h
    obtain ⟨x, xs, hafter, hx, -⟩ := mem_digit.1 hr
    exact ⟨x, xs, hafter, hx⟩
  · rintro ⟨x, xs, hafter, hx⟩ hnil
    have hmem : ((), (⟨x :: c.before, xs⟩ : Place)) ∈ digit c := mem_digit.2 ⟨x, xs, hafter, hx, rfl⟩
    rw [hnil] at hmem
    cases hmem

/-- A pattern that eats characters, and at least one. -/
def Bites {α : Type} (p : Char → Prop) (m : Pattern α) : Prop :=
  ∀ c r, r ∈ m c → ∃ w, Reads c w r.2 ∧ w ≠ [] ∧ ∀ x ∈ w, p x

theorem Bites.eats {α : Type} {p : Char → Prop} {m : Pattern α} (h : Bites p m) : Eats p m := fun c r hr =>
  let ⟨w, hw, _, hp⟩ := h c r hr
  ⟨w, hw, hp⟩

theorem Bites.shortens {α : Type} {p : Char → Prop} {m : Pattern α} (h : Bites p m) (c : Place) (r : α × Place)
    (hr : r ∈ m c) : r.2.after.length < c.after.length := by
  obtain ⟨w, hw, hne, -⟩ := h c r hr
  have hpos := List.length_pos_iff.2 hne
  rw [hw.length]
  omega

theorem bites_digit : Bites (fun x => x.isDigit = true) digit := by
  intro c r hr
  obtain ⟨x, xs, hafter, hx, hplace⟩ := mem_digit.1 hr
  refine ⟨[x], ⟨?_, ?_⟩, List.cons_ne_nil _ _, fun y hy => ?_⟩
  · rw [hplace]
    rfl
  · rw [hplace, hafter]
    rfl
  · rw [List.mem_singleton.1 hy]
    exact hx

theorem bites_digits : Bites (fun x => x.isDigit = true) (plus digit) := by
  intro c r hr
  obtain ⟨a, d, hd, hr⟩ := mem_bind.1 hr
  obtain ⟨w, hw, hne, hpw⟩ := bites_digit c _ hd
  obtain ⟨v, hv, hpv⟩ := eats_star bites_digit.eats d r hr
  refine ⟨w ++ v, hw.trans hv, List.append_ne_nil_of_left_ne_nil hne v, fun x hx => ?_⟩
  rcases List.mem_append.1 hx with hx | hx
  · exact hpw x hx
  · exact hpv x hx

/-- What a number is made of. -/
def InNumber (c : Char) : Prop := c.isDigit = true ∨ isMark c = true ∨ c = ' '

theorem eats_separator : Eats (fun x => x.isDigit = false ∧ InNumber x) separator := by
  refine eats_either (eats_one fun x hx => ⟨?_, .inr (.inl hx)⟩) ?_
  · by_contra hdigit
    rw [not_isMark (Bool.eq_true_of_not_eq_false hdigit)] at hx
    cases hx
  · refine eats_bind (eats_one fun x hx => ?_) fun _ => eats_bind (eats_one fun x hx => ?_) fun _ => eats_ahead
    · rw [beq_iff_eq.1 hx]
      exact ⟨by decide, .inr (.inl (by decide))⟩
    · rw [beq_iff_eq.1 hx]
      exact ⟨by decide, .inr (.inr rfl)⟩

theorem bites_group : Bites InNumber group := by
  intro c r hr
  obtain ⟨a, d, hd, hr⟩ := mem_bind.1 hr
  obtain ⟨w, hw, hpw⟩ := eats_separator c _ hd
  obtain ⟨v, hv, hne, hpv⟩ := bites_digits d r hr
  refine ⟨w ++ v, hw.trans hv, List.append_ne_nil_of_right_ne_nil w hne, fun x hx => ?_⟩
  rcases List.mem_append.1 hx with hx | hx
  · exact (hpw x hx).2
  · exact .inl (hpv x hx)

/-- The end of a run of digits. -/
def DigitsEnd (c : Place) : Prop := AfterDigit c ∧ digit c = []

theorem first_digits {c : Place} {r : Unit × Place} (h : first (plus digit) c = some r) : DigitsEnd r.2 := by
  rw [plus, first_bind_total fun _ d => star_ne_nil digit d] at h
  obtain ⟨d, hd, hstar⟩ := Option.bind_eq_some_iff.1 h
  have hstep : ∀ c r, first digit c = some r → AfterDigit r.2 := by
    intro c r hr
    obtain ⟨x, xs, -, hx, hplace⟩ := mem_digit.1 (mem_of_first hr)
    exact ⟨x, c.before, by rw [hplace], hx⟩
  exact first_star bites_digit.shortens hstep hstar (hstep _ _ hd)

theorem first_group {c : Place} {r : Unit × Place} (h : first group c = some r) : DigitsEnd r.2 := by
  obtain ⟨_, d, -, hr⟩ := first_bind h
  exact first_digits hr

theorem first_plain {c : Place} {r : Unit × Place} (h : first plainNumber c = some r) :
    DigitsEnd r.2 ∧ group r.2 = [] := by
  rw [plainNumber, first_bind_total fun _ d => star_ne_nil group d] at h
  obtain ⟨d, hd, hstar⟩ := Option.bind_eq_some_iff.1 h
  exact first_star bites_group.shortens (fun _ _ => first_group) hstar (first_digits hd)

/-- Past a digit, inside digits, a digit follows. -/
theorem digit_within {c' d : Place} {w v : Text} (hw : Reads c' w d) (hne : w ≠ []) (hv : ∀ x ∈ v, x.isDigit = true)
    (hsub : ∀ x ∈ w, x ∈ v) : digit c' ≠ [] := by
  obtain ⟨x, xs, rfl⟩ := List.exists_cons_of_ne_nil hne
  refine digit_ne_nil.2 ⟨x, xs ++ d.after, hw.after, hv x (hsub x List.mem_cons_self)⟩

/-- Inside a number, past a digit, the number goes on. -/
theorem star_goes_on {c c' : Place} {r : Unit × Place} (hr : r ∈ star group c) {w w' : Text}
    (hw : Reads c w c') (hw' : Reads c' w' r.2) (hne : w' ≠ []) (hdigit : AfterDigit c') :
    digit c' ≠ [] ∨ group c' ≠ [] := by
  have key : (∃ y, Reads c y r.2) ∧ ∀ w w', Reads c w c' → Reads c' w' r.2 → w' ≠ [] → digit c' ≠ [] ∨ group c' ≠ [] := by
    refine star_induction (motive := fun c e => (∃ y, Reads c y e) ∧ ∀ w w', Reads c w c' → Reads c' w' e → w' ≠ [] →
      digit c' ≠ [] ∨ group c' ≠ []) (fun c => ⟨⟨[], .refl c⟩, fun w w' hw hw' hne => ?_⟩)
      (fun c d e hd ih => ?_) hr
    · -- nothing is read from `c` back to `c`
      have hlength := (hw.trans hw').length
      rw [List.length_append] at hlength
      have hpos := List.length_pos_iff.2 hne
      omega
    · obtain ⟨a, s, hs, hdigits⟩ := mem_bind.1 hd
      obtain ⟨u, hu, hpu⟩ := eats_separator c _ hs
      obtain ⟨v, hv, -, hpv⟩ := bites_digits s d hdigits
      obtain ⟨⟨y, hy⟩, ih⟩ := ih
      refine ⟨⟨_, (hu.trans hv).trans hy⟩, fun w w' hw hw' hne => ?_⟩
      rcases (hu.trans hv).between hy hw hw' with ⟨z, hz, -⟩ | ⟨z, hz, -⟩
      · rcases hu.between hv hw hz with ⟨z', hz', -⟩ | ⟨z', -, hsplit⟩
        · -- before the group's first digit, only its start is past a digit
          have hstart : w = [] := by
            rcases List.eq_nil_or_concat w with hnil | ⟨t, l, hl⟩
            · exact hnil
            · obtain ⟨x, xs, hbefore, hx⟩ := hdigit
              have hlast : l = x := by
                have hreverse := hw.before
                rw [hl, List.concat_eq_append, List.reverse_append, hbefore] at hreverse
                exact (List.cons.inj hreverse).1.symm
              have hmem : l ∈ u := by
                rw [hu.word (hw.trans hz'), hl, List.concat_eq_append]
                simp
              rw [← hlast, (hpu l hmem).1] at hx
              cases hx
          subst hstart
          have hsame : c = c' := (Reads.refl c).unique hw
          subst hsame
          exact .inr (List.ne_nil_of_mem hd)
        · cases z with
          | nil =>
            have hsame : c' = d.2 := (Reads.refl c').unique hz
            exact ih [] w' (hsame ▸ Reads.refl _) hw' hne
          | cons x xs =>
            refine .inl (digit_within (v := v) hz (List.cons_ne_nil _ _) hpv fun y hy => ?_)
            rw [hsplit]
            exact List.mem_append_right _ hy
      · exact ih z w' hz hw' hne
  exact key.2 w w' hw hw' hne

/-- A plain number that goes past a place after a digit goes on there. -/
theorem plain_goes_on {c c' : Place} {r : Unit × Place} (hr : r ∈ plainNumber c) {w w' : Text}
    (hw : Reads c w c') (hw' : Reads c' w' r.2) (hne : w' ≠ []) (hdigit : AfterDigit c') :
    digit c' ≠ [] ∨ group c' ≠ [] := by
  obtain ⟨a, d, hd, hr⟩ := mem_bind.1 hr
  obtain ⟨u, hu, -, hpu⟩ := bites_digits c _ hd
  obtain ⟨v, hv, -⟩ := eats_star bites_group.eats d r hr
  rcases hu.between hv hw hw' with ⟨z, hz, -⟩ | ⟨z, hz, -⟩
  · cases z with
    | nil =>
      have hsame : c' = d := (Reads.refl c').unique hz
      subst hsame
      exact star_goes_on hr (.refl c') hw' hne hdigit
    | cons x xs =>
      refine .inl (digit_within (v := u) hz (List.cons_ne_nil _ _) hpu fun y hy => ?_)
      rw [hu.word (hw.trans hz)]
      exact List.mem_append_right _ hy
  · exact star_goes_on hr hz hw' hne hdigit

/-- What a number of the second form is: its point, after neither a digit nor a point, and digits that end there. -/
theorem mem_bare {c : Place} {r : Unit × Place} (h : r ∈ bareNumber c) :
    (c.before.head?.any fun x => x.isDigit || x == '.') = false ∧
    (∃ w, Reads c ('.' :: w) r.2 ∧ w ≠ [] ∧ ∀ x ∈ w, x.isDigit = true) ∧ digit r.2 = [] ∧
    ∀ m y xs, r.2.after = m :: y :: xs → isMark m = true → y.isDigit = false := by
  obtain ⟨_, d, hbehind, h⟩ := mem_bind.1 h
  obtain ⟨hbefore, hd⟩ := mem_notBehind.1 hbehind
  cases hd
  obtain ⟨_, d, hpoint, h⟩ := mem_bind.1 h
  obtain ⟨x, xs, hafter, hx, hd⟩ := mem_one.1 hpoint
  obtain ⟨_, e, hdigits, h⟩ := mem_bind.1 h
  obtain ⟨hnone, he⟩ := mem_notAhead.1 h
  cases he
  obtain ⟨w, hw, hne, hpw⟩ := bites_digits d _ hdigits
  replace hd : d = ⟨x :: c.before, xs⟩ := hd
  have hread : Reads c ['.'] d := by
    constructor
    · rw [hd, beq_iff_eq.1 hx]
      rfl
    · rw [hafter, hd, beq_iff_eq.1 hx]
      rfl
  refine ⟨hbefore, ⟨w, hread.trans hw, hne, hpw⟩, ?_, fun m y ys he hm => ?_⟩
  · by_contra hmore
    obtain ⟨r', hr'⟩ := List.exists_mem_of_ne_nil _ hmore
    have hmem : r' ∈ ((do let _ ← optional (one isMark); digit) : Pattern Unit) e :=
      mem_bind.2 ⟨none, e, mem_optional.2 (.inr rfl), hr'⟩
    rw [hnone] at hmem
    cases hmem
  · by_contra hy
    have hmark : ((), (⟨m :: e.before, y :: ys⟩ : Place)) ∈ one isMark e := mem_one.2 ⟨m, y :: ys, he, hm, rfl⟩
    have hdigit : ((), (⟨y :: m :: e.before, ys⟩ : Place)) ∈ digit ⟨m :: e.before, y :: ys⟩ :=
      mem_digit.2 ⟨y, ys, rfl, Bool.eq_true_of_not_eq_false hy, rfl⟩
    have hmem : ((), (⟨y :: m :: e.before, ys⟩ : Place)) ∈ ((do let _ ← optional (one isMark); digit) : Pattern Unit) e :=
      mem_bind.2 ⟨some (), ⟨m :: e.before, y :: ys⟩, mem_optional.2 (.inl ⟨(), _, hmark, rfl⟩), hdigit⟩
    rw [hnone] at hmem
    cases hmem

/-- A digit starts a number. -/
theorem plain_ne_nil {c : Place} (h : digit c ≠ []) : plainNumber c ≠ [] := by
  obtain ⟨r, hr⟩ := List.exists_mem_of_ne_nil _ h
  obtain ⟨e, he⟩ := List.exists_mem_of_ne_nil _ (star_ne_nil digit r.2)
  obtain ⟨f, hf⟩ := List.exists_mem_of_ne_nil _ (star_ne_nil group e.2)
  exact List.ne_nil_of_mem (mem_bind.2 ⟨_, _, mem_bind.2 ⟨_, _, hr, he⟩, hf⟩)

/-- Where a group starts with a mark right before a digit, there is one. -/
theorem group_ne_nil {c : Place} {m y : Char} {xs : Text} (hc : c.after = m :: y :: xs) (hm : isMark m = true)
    (hy : y.isDigit = true) : group c ≠ [] := by
  have hmark : ((), (⟨m :: c.before, y :: xs⟩ : Place)) ∈ separator c :=
    mem_either.2 (.inl (mem_one.2 ⟨m, y :: xs, hc, hm, rfl⟩))
  have hdigit : ((), (⟨y :: m :: c.before, xs⟩ : Place)) ∈ digit ⟨m :: c.before, y :: xs⟩ :=
    mem_digit.2 ⟨y, xs, rfl, hy, rfl⟩
  obtain ⟨e, he⟩ := List.exists_mem_of_ne_nil _ (star_ne_nil digit ⟨y :: m :: c.before, xs⟩)
  exact List.ne_nil_of_mem (mem_bind.2 ⟨_, _, hmark, mem_bind.2 ⟨_, _, hdigit, he⟩⟩)

theorem eats_number : Eats InNumber number := by
  refine eats_either (eats_bind (bites_digits.eats.mono fun _ => .inl) fun _ => eats_star bites_group.eats) ?_
  intro c r hr
  obtain ⟨-, ⟨w, hw, -, hpw⟩, -, -⟩ := mem_bare hr
  refine ⟨_, hw, fun x hx => ?_⟩
  rcases List.mem_cons.1 hx with rfl | hx
  · exact .inr (.inl (by decide))
  · exact .inl (hpw x hx)

/-- How a number of a match stands: it starts with a digit or a bare point, and neither a digit nor a mark with a digit
behind it follows its last digit. -/
structure NumberRead (c : Place) (w : Text) (c' : Place) : Prop where
  reads : Reads c w c'
  inside : ∀ x ∈ w, InNumber x
  starts : ∃ x xs, w = x :: xs ∧ (x.isDigit = true ∨ x = '.' ∧ ∀ y, c.before.head? = some y → y.isDigit = false)
  afterDigit : AfterDigit c'
  noDigit : digit c' = []
  noGroup : ∀ m y xs, c'.after = m :: y :: xs → isMark m = true → y.isDigit = false
  /-- A plain number ends where no group follows; the digits of a bare one are all it has. -/
  form : plainNumber c ≠ [] ∧ group c' = [] ∨ ∃ ds, w = '.' :: ds ∧ ∀ x ∈ ds, x.isDigit = true

theorem number_read {c : Place} {r : Unit × Place} (h : first number c = some r) : ∃ w, NumberRead c w r.2 := by
  rcases first_either h with h | ⟨-, h⟩
  · obtain ⟨a, d, hd, hstar⟩ := mem_bind.1 (mem_of_first h)
    obtain ⟨u, hu, hne, hpu⟩ := bites_digits c _ hd
    obtain ⟨v, hv, hpv⟩ := eats_star bites_group.eats d r hstar
    obtain ⟨⟨hafter, hnone⟩, hgroup⟩ := first_plain h
    obtain ⟨x, xs, rfl⟩ := List.exists_cons_of_ne_nil hne
    refine ⟨(x :: xs) ++ v, hu.trans hv, fun y hy => ?_, ⟨x, xs ++ v, rfl, .inl (hpu x List.mem_cons_self)⟩, hafter, hnone,
      fun m y ys hm hmark => ?_, .inl ⟨List.ne_nil_of_mem (mem_of_first h), hgroup⟩⟩
    · rcases List.mem_append.1 hy with hy | hy
      · exact .inl (hpu y hy)
      · exact hpv y hy
    · by_contra hdigit
      exact group_ne_nil hm hmark (Bool.eq_true_of_not_eq_false hdigit) hgroup
  · obtain ⟨hbefore, ⟨w, hw, hne, hpw⟩, hnone, hmarks⟩ := mem_bare (mem_of_first h)
    refine ⟨'.' :: w, hw, fun y hy => ?_, ⟨'.', w, rfl, .inr ⟨rfl, fun y hy => ?_⟩⟩, ?_, hnone, hmarks, .inr ⟨w, rfl, hpw⟩⟩
    · rcases List.mem_cons.1 hy with rfl | hy
      · exact .inr (.inl (by decide))
      · exact .inl (hpw y hy)
    · rw [hy, Option.any_some, Bool.or_eq_false_iff] at hbefore
      exact hbefore.1
    · rcases List.eq_nil_or_concat w with hnil | ⟨t, l, hl⟩
      · exact absurd hnil hne
      · refine ⟨l, t.reverse ++ '.' :: c.before, ?_, hpw l (by rw [hl, List.concat_eq_append]; simp)⟩
        rw [hw.before, hl]
        simp

/-! ## One match -/

/-- A match, from `c` to `d`, with its number from `s` to `e`. -/
structure Parts (c s e d : Place) (m : AmountMatch) : Prop where
  lead : ∃ w, Reads c w s ∧ (∀ x ∈ w, Bland x) ∧ (m.lead.open.isSome = true → w ≠ [])
  number : NumberRead s m.digits e
  longest : Pattern.first Quotes.number s = some ((), e)
  trail : ∃ w, Reads e w d ∧ ∀ x ∈ w, Bland x
  start : m.digitsStart = s.index
  stop : m.digitsEnd = e.index

theorem trail_ne_nil (c : Place) : trail c ≠ [] := by
  have hnone : ∀ {α : Type} (m : Pattern α), (none, c) ∈ optional m c := fun m => mem_optional.2 (.inr rfl)
  exact List.ne_nil_of_mem (mem_bind.2 ⟨_, _, hnone _, mem_bind.2 ⟨_, _, hnone _, mem_bind.2 ⟨_, _, hnone _,
    mem_pure.2 rfl⟩⟩⟩)

/-- The pattern, from the end of its number on. -/
def fromDigits (l : Lead) (digitsStart : Nat) (digits : Text) : Pattern AmountMatch := do
  let digitsEnd ← position
  let trail ← trail
  pure ⟨l, digits, digitsStart, digitsEnd, trail⟩

theorem fromDigits_ne_nil (l : Lead) (n : Nat) (digits : Text) (c : Place) : fromDigits l n digits c ≠ [] := by
  obtain ⟨⟨t, d⟩, hd⟩ := List.exists_mem_of_ne_nil _ (trail_ne_nil c)
  exact List.ne_nil_of_mem (mem_bind.2 ⟨_, _, mem_position.2 rfl, mem_bind.2 ⟨_, _, hd, mem_pure.2 rfl⟩⟩)

theorem amountPattern_eq (L : LetterClass) : amountPattern L =
    lead L >>= fun l => position >>= fun n => captured number >>= fun digits => fromDigits l n digits := rfl

/-- A parenthesis that is open was read. -/
theorem lead_open {L : LetterClass} {c s : Place} {l : Lead} (h : (l, s) ∈ Quotes.lead L c) {w : Text} (hw : Reads c w s)
    (hopen : l.open.isSome = true) : w ≠ [] := by
  rintro rfl
  obtain ⟨o, d, ho, h⟩ := mem_bind.1 h
  obtain ⟨minus, d', hminus, h⟩ := mem_bind.1 h
  obtain ⟨dollar, d'', hdollar, h⟩ := mem_bind.1 h
  cases mem_pure.1 h
  have hrest : s.after.length ≤ d.after.length := by
    obtain ⟨u, hu, -⟩ := eats_optional (eats_minusBefore L) _ _ hminus
    obtain ⟨v, hv, -⟩ := eats_optional eats_dollar _ _ hdollar
    have hlength := hu.length
    have hlength' := hv.length
    dsimp only at hlength hlength'
    omega
  rcases mem_optional.1 ho with ⟨t, e, ht, heq⟩ | heq
  · cases heq
    obtain ⟨a, d, hd, heq⟩ := mem_captured.1 ht
    cases heq
    obtain ⟨x, xs, hafter, -, hplace⟩ := mem_one.1 hd
    have hlength := hw.length
    replace hplace : d = ⟨x :: c.before, xs⟩ := hplace
    rw [hplace] at hrest
    rw [hafter] at hlength
    simp only [List.length_cons, List.length_nil] at hlength hrest
    omega
  · cases heq
    cases hopen

theorem first_parts {L : LetterClass} {c d : Place} {m : AmountMatch} (h : first (amountPattern L) c = some (m, d)) :
    ∃ s e, Parts c s e d m := by
  rw [amountPattern_eq] at h
  obtain ⟨l, s, hl, h⟩ := first_bind h
  obtain ⟨n, s', hn, h⟩ := first_bind h
  cases mem_position.1 hn
  rw [first_bind_total fun digits e => fromDigits_ne_nil l s.index digits e] at h
  obtain ⟨⟨digits, e⟩, hdigits, h⟩ := Option.bind_eq_some_iff.1 h
  rw [first_captured] at hdigits
  obtain ⟨⟨⟨⟩, e'⟩, hnumber, heq⟩ := Option.map_eq_some_iff.1 hdigits
  obtain ⟨n', e'', hn', h⟩ := mem_bind.1 (mem_of_first h)
  cases mem_position.1 hn'
  obtain ⟨t, d', ht, h⟩ := mem_bind.1 h
  cases mem_pure.1 h
  obtain ⟨w, hw, hpw⟩ := eats_lead L _ _ hl
  obtain ⟨v, hv⟩ := number_read hnumber
  have hmem : (digits, e) ∈ captured number s := mem_captured.2 ⟨(), e', mem_of_first hnumber, heq.symm⟩
  cases (Prod.mk.inj heq).2
  have hcaptured : v = digits := hv.reads.word (captured_eq eats_number hmem)
  exact ⟨s, e', ⟨w, hw, hpw, lead_open hl hw⟩, hcaptured ▸ hv, hnumber, eats_trail _ _ ht, rfl, rfl⟩

theorem amountPattern_ne_nil {L : LetterClass} {c : Place} (h : number c ≠ []) : amountPattern L c ≠ [] := by
  have hnone : ∀ {α : Type} (m : Pattern α) (c : Place), (none, c) ∈ optional m c := fun m c => mem_optional.2 (.inr rfl)
  obtain ⟨⟨a, e⟩, he⟩ := List.exists_mem_of_ne_nil _ h
  have hl : ((⟨none, none, none⟩ : Lead), c) ∈ lead L c :=
    mem_bind.2 ⟨_, _, hnone _ _, mem_bind.2 ⟨_, _, hnone _ _, mem_bind.2 ⟨_, _, hnone _ _, mem_pure.2 rfl⟩⟩⟩
  have hdigits : (c.after.take (c.after.length - e.after.length), e) ∈ captured number c := mem_captured.2 ⟨a, e, he, rfl⟩
  obtain ⟨r, hr⟩ := List.exists_mem_of_ne_nil _ (fromDigits_ne_nil ⟨none, none, none⟩ c.index
    (c.after.take (c.after.length - e.after.length)) e)
  rw [amountPattern_eq]
  exact List.ne_nil_of_mem (mem_bind.2 ⟨_, _, hl, mem_bind.2 ⟨_, _, mem_position.2 rfl, mem_bind.2 ⟨_, _, hdigits, hr⟩⟩⟩)

/-- Every way a number can be read reads something. -/
theorem number_shortens {c : Place} {r : Unit × Place} (h : r ∈ number c) : r.2.after.length < c.after.length := by
  rcases mem_either.1 h with h | h
  · obtain ⟨a, d, hd, hr⟩ := mem_bind.1 h
    obtain ⟨v, hv, -⟩ := eats_star bites_group.eats d r hr
    have hlength := hv.length
    have hfirst := bites_digits.shortens c _ hd
    dsimp only at hfirst
    omega
  · obtain ⟨-, ⟨w, hw, -, -⟩, -, -⟩ := mem_bare h
    rw [hw.length, List.length_cons]
    omega

theorem amountPattern_shortens {L : LetterClass} (c : Place) (r : AmountMatch × Place) (h : r ∈ amountPattern L c) :
    r.2.after.length < c.after.length := by
  rw [amountPattern_eq] at h
  obtain ⟨l, s, hl, h⟩ := mem_bind.1 h
  obtain ⟨n, s', hn, h⟩ := mem_bind.1 h
  cases mem_position.1 hn
  obtain ⟨digits, e, he, h⟩ := mem_bind.1 h
  obtain ⟨a, d, hd, heq⟩ := mem_captured.1 he
  cases heq
  obtain ⟨n', e', hn', h⟩ := mem_bind.1 h
  cases mem_position.1 hn'
  obtain ⟨t, d', ht, h⟩ := mem_bind.1 h
  cases mem_pure.1 h
  obtain ⟨w, hw, -⟩ := eats_lead L _ _ hl
  obtain ⟨v, hv, -⟩ := eats_trail _ _ ht
  have hshort := number_shortens hd
  have hlead := hw.length
  have htrail := hv.length
  dsimp only at hshort hlead htrail ⊢
  omega

/-! ## Digits and marks of a text -/

def digitAt (text : Text) (p : Nat) : Prop := ∃ x, text[p]? = some x ∧ x.isDigit = true

def markAt (text : Text) (p : Nat) : Prop := ∃ x, text[p]? = some x ∧ isMark x = true

/-- A number read to its own ends: no digit is next to it, and no point or comma joins it to another digit. -/
structure ReadWhole (text : Text) (s e : Nat) : Prop where
  before : ∀ q, q + 1 = s → ¬ digitAt text q
  after : ¬ digitAt text e
  joinedBefore : ∀ q, q + 2 = s → digitAt text q → markAt text (q + 1) → ¬ digitAt text s
  joinedAfter : markAt text e → ¬ digitAt text (e + 1)

/-- A number printed in the text: what the pattern's number matches there, not from within another. -/
def NumberAt (text : Text) (s e : Nat) : Prop :=
  ∃ c r, c.text = text ∧ c.index = s ∧ r ∈ number c ∧ r.2.index = e ∧
    ∀ x, c.before.head? = some x → x.isDigit = false ∧ x ≠ '.'

theorem digitAt_index {c : Place} : digitAt c.text c.index ↔ digit c ≠ [] := by
  rw [digit_ne_nil, digitAt, Place.getElem?_head]
  constructor
  · rintro ⟨x, hhead, hx⟩
    obtain ⟨xs, hafter⟩ := List.head?_eq_some_iff.1 hhead
    exact ⟨x, xs, hafter, hx⟩
  · rintro ⟨x, xs, hafter, hx⟩
    exact ⟨x, by rw [hafter, List.head?_cons], hx⟩

theorem getElem?_last {c : Place} {x : Char} {xs : Text} (h : c.before = x :: xs) {q : Nat} (hq : q + 1 = c.index) :
    c.text[q]? = some x := by
  have hlength := c.getElem?_before (show 0 < c.index by omega)
  rw [show c.index - 1 - 0 = q by omega, h, List.getElem?_cons_zero] at hlength
  exact hlength

/-- No number goes on past a place where a match may start. -/
structure Apart (text : Text) (p : Nat) : Prop where
  digits : ∀ q, q + 1 = p → digitAt text q → ¬ digitAt text p
  mark : ∀ q, q + 1 = p → digitAt text q → markAt text p → ¬ digitAt text (p + 1)
  past : ∀ q, q + 2 = p → digitAt text q → markAt text (q + 1) → ¬ digitAt text p
  crossed : ∀ s e, NumberAt text s e → s < p → e ≤ p

theorem apart_start (text : Text) : Apart text 0 where
  digits _ h := absurd h (Nat.succ_ne_zero _)
  mark _ h := absurd h (Nat.succ_ne_zero _)
  past _ h := absurd h (Nat.succ_ne_zero _)
  crossed _ _ _ h := absurd h (Nat.not_lt_zero _)

theorem not_digit_of_bland {text : Text} {p : Nat} {x : Char} (h : text[p]? = some x) (hx : Bland x) :
    ¬ digitAt text p ∧ ¬ markAt text p := by
  constructor
  · rintro ⟨y, hy, hdigit⟩
    cases h.symm.trans hy
    rw [hx.1] at hdigit
    cases hdigit
  · rintro ⟨y, hy, hmark⟩
    cases h.symm.trans hy
    rw [hx.2] at hmark
    cases hmark

/-- A mark is no digit. -/
theorem not_markAt {text : Text} {p : Nat} (h : digitAt text p) : ¬ markAt text p := by
  rintro ⟨y, hy, hmark⟩
  obtain ⟨x, hx, hdigit⟩ := h
  cases hx.symm.trans hy
  rw [not_isMark hdigit] at hmark
  cases hmark

/-- Where nothing matches, no number is read. -/
theorem number_nil {L : LetterClass} {c : Place} (h : first (amountPattern L) c = none) : number c = [] := by
  by_contra hne
  exact amountPattern_ne_nil hne (first_eq_none.1 h)

theorem apart_skip {L : LetterClass} {c : Place} (h : first (amountPattern L) c = none) (hapart : Apart c.text c.index) :
    Apart c.text (c.index + 1) := by
  have hnone := number_nil h
  have hdigit : ¬ digitAt c.text c.index := by
    rw [digitAt_index]
    intro hdigit
    exact plain_ne_nil hdigit (List.append_eq_nil_iff.1 hnone).1
  refine ⟨fun q hq => ?_, fun q hq => ?_, fun q hq => ?_, fun s e hnumber hs => ?_⟩
  · rw [Nat.succ_injective hq]
    exact fun hd => absurd hd hdigit
  · rw [Nat.succ_injective hq]
    exact fun hd => absurd hd hdigit
  · intro hq' hmark
    have hlast : q + 1 = c.index := by omega
    rw [hlast] at hmark
    exact hapart.mark q hlast hq' hmark
  · rcases Nat.lt_or_eq_of_le (Nat.lt_succ_iff.1 hs) with hlt | rfl
    · exact Nat.le_succ_of_le (hapart.crossed s e hnumber hlt)
    · obtain ⟨c', r, htext, hindex, hr, -, -⟩ := hnumber
      rw [Place.eq_of_index htext hindex, hnone] at hr
      cases hr

theorem NumberRead.end_apart {s e : Place} {w : Text} (h : NumberRead s w e) :
    ¬ digitAt s.text e.index ∧ (markAt s.text e.index → ¬ digitAt s.text (e.index + 1)) := by
  rw [← h.reads.text, digitAt_index]
  refine ⟨fun hne => hne h.noDigit, ?_⟩
  rintro ⟨m, hm, hmark⟩ ⟨y, hy, hdigit⟩
  rw [Place.getElem?_head] at hm
  obtain ⟨xs, hafter⟩ := List.head?_eq_some_iff.1 hm
  rw [Place.getElem?_after, hafter, List.getElem?_cons_succ, ← List.head?_eq_getElem?] at hy
  obtain ⟨ys, rfl⟩ := List.head?_eq_some_iff.1 hy
  rw [h.noGroup m y ys hafter hmark] at hdigit
  cases hdigit

/-- A number starts with a digit or a point. -/
theorem number_head {c : Place} {r : Unit × Place} (h : r ∈ number c) :
    digit c ≠ [] ∨ ∃ xs, c.after = '.' :: xs := by
  rcases mem_either.1 h with h | h
  · obtain ⟨a, d, hd, -⟩ := mem_bind.1 h
    obtain ⟨a', d', hd', -⟩ := mem_bind.1 hd
    exact .inl (List.ne_nil_of_mem hd')
  · obtain ⟨-, ⟨w, hw, -, -⟩, -, -⟩ := mem_bare h
    exact .inr ⟨w ++ r.2.after, hw.after⟩

theorem number_at {text : Text} {s e : Nat} (h : NumberAt text s e) : digitAt text s ∨ markAt text s := by
  obtain ⟨c, r, rfl, rfl, hr, -, -⟩ := h
  rcases number_head hr with hdigit | ⟨xs, hafter⟩
  · exact .inl (digitAt_index.2 hdigit)
  · refine .inr ⟨'.', ?_, by decide⟩
    rw [Place.getElem?_head, hafter, List.head?_cons]

/-- Between two places with nothing but other characters read, there is no digit and no mark. -/
theorem bland_between {c c' : Place} {w : Text} (h : Reads c w c') (hw : ∀ x ∈ w, Bland x) {p : Nat} (hp : c.index ≤ p)
    (hp' : p < c'.index) : ¬ digitAt c.text p ∧ ¬ markAt c.text p := by
  have hget := h.getElem? hp hp'
  have hlength := h.index
  rw [List.getElem?_eq_getElem (show p - c.index < w.length by omega)] at hget
  exact not_digit_of_bland hget (hw _ (List.getElem_mem _))

/-- No number printed in the text starts within one that was read and goes past its end. -/
theorem not_crossed {s e : Place} {w : Text} (h : NumberRead s w e) {s' e' : Nat} (hnumber : NumberAt s.text s' e')
    (hs : s.index ≤ s') (he : s' < e.index) : e' ≤ e.index := by
  obtain ⟨c, r, htext, rfl, hr, rfl, hstart⟩ := hnumber
  by_contra hpast
  obtain ⟨u, hu⟩ := Reads.of_index_le (htext.trans h.reads.text.symm) (Nat.le_of_lt he)
  have hrtext : r.2.text = c.text := by
    obtain ⟨v, hv, -⟩ := eats_number c r hr
    exact hv.text
  obtain ⟨v, hv⟩ := Reads.of_index_le (h.reads.text.trans (htext.symm.trans hrtext.symm)) (Nat.le_of_lt (Nat.lt_of_not_le hpast))
  have hvne : v ≠ [] := by
    rintro rfl
    exact hpast (Nat.le_of_eq (by rw [hv.index, List.length_nil, Nat.add_zero]))
  rcases mem_either.1 hr with hr | hr
  · rcases plain_goes_on hr hu hv hvne h.afterDigit with hdigit | hgroup
    · exact hdigit h.noDigit
    · rcases h.form with ⟨-, hnone⟩ | ⟨ds, hds, hall⟩
      · exact hgroup hnone
      · -- the number read has digits after its point alone: past the point, each place is within it
        rcases Nat.lt_or_eq_of_le hs with hlt | heq
        · obtain ⟨x, hx, hgood⟩ : ∃ x, c.before.head? = some x ∧ (x.isDigit = true ∨ x = '.') := by
            obtain ⟨y, hy⟩ := Reads.of_index_le htext.symm hs
            have hyne : y ≠ [] := by
              rintro rfl
              rw [hy.index, List.length_nil] at hlt
              omega
            obtain ⟨x, xs, hbefore, hmem⟩ := hy.last hyne
            have hsub : x ∈ w := by
              rw [h.reads.word (hy.trans hu)]
              exact List.mem_append_left _ hmem
            refine ⟨x, by rw [hbefore, List.head?_cons], ?_⟩
            rw [hds] at hsub
            rcases List.mem_cons.1 hsub with rfl | hsub
            · exact .inr rfl
            · exact .inl (hall x hsub)
          obtain ⟨hnodigit, hnopoint⟩ := hstart x hx
          rcases hgood with hgood | hgood
          · rw [hnodigit] at hgood
            cases hgood
          · exact hnopoint hgood
        · have hsame : s = c := Place.eq_of_index htext.symm heq
          subst hsame
          obtain ⟨a, d, hd, -⟩ := mem_bind.1 hr
          obtain ⟨a', d', hd', -⟩ := mem_bind.1 hd
          obtain ⟨x, xs, hafter, hx, -⟩ := mem_digit.1 hd'
          rw [h.reads.after, hds] at hafter
          cases hafter
          cases hx
  · obtain ⟨-, ⟨ds, hds, -, hall⟩, -, -⟩ := mem_bare hr
    have hword := hds.word (hu.trans hv)
    cases u with
    | nil =>
      rw [hu.index, List.length_nil] at he
      omega
    | cons x u =>
      have htail : ds = u ++ v := (List.cons.inj hword).2
      exact digit_within (v := ds) hv hvne hall (fun y hy => htail ▸ List.mem_append_right _ hy) h.noDigit

/-! ## The matches of a text -/

/-- A match whose number is read whole, and is no part of a longer one. -/
structure NumberWhole (text : Text) (m : Match AmountMatch) : Prop where
  start : m.start.index ≤ m.value.digitsStart
  some : m.value.digitsStart < m.value.digitsEnd
  stop : m.value.digitsEnd ≤ m.stop.index
  span : startOf m ≤ m.value.digitsStart
  slice : m.value.digits = (text.drop m.value.digitsStart).take (m.value.digitsEnd - m.value.digitsStart)
  whole : ReadWhole text m.value.digitsStart m.value.digitsEnd
  maximal : ∀ s e, NumberAt text s e → s ≤ m.value.digitsStart → m.value.digitsEnd ≤ e →
    s = m.value.digitsStart ∧ e = m.value.digitsEnd

theorem NumberRead.index_lt {s e : Place} {w : Text} (h : NumberRead s w e) : s.index < e.index := by
  obtain ⟨x, xs, rfl, -⟩ := h.starts
  rw [h.reads.index, List.length_cons]
  omega

/-- Nothing goes on into the number of a match from before it. -/
theorem Parts.start_apart {c s e d : Place} {m : AmountMatch} (h : Parts c s e d m) (hapart : Apart c.text c.index) :
    (∀ q, q + 1 = s.index → ¬ digitAt c.text q) ∧
    ∀ q, q + 2 = s.index → digitAt c.text q → markAt c.text (q + 1) → ¬ digitAt c.text s.index := by
  obtain ⟨w, hw, hbland, -⟩ := h.lead
  cases w with
  | nil =>
    have hsame : c = s := (Reads.refl c).unique hw
    subst hsame
    refine ⟨fun q hq hdigit => ?_, hapart.past⟩
    obtain ⟨x, xs, hword, hx | ⟨rfl, hbefore⟩⟩ := h.number.starts
    · refine hapart.digits q hq hdigit ⟨x, ?_, hx⟩
      rw [Place.getElem?_head, h.number.reads.after, hword]
      rfl
    · obtain ⟨y, hy, hydigit⟩ := hdigit
      cases hc : c.before with
      | nil =>
        rw [Place.index, hc] at hq
        cases hq
      | cons z zs =>
        cases (getElem?_last hc hq).symm.trans hy
        rw [hbefore y (by rw [hc, List.head?_cons])] at hydigit
        cases hydigit
  | cons x xs =>
    have hpos : c.index < s.index := by
      rw [hw.index, List.length_cons]
      omega
    refine ⟨fun q hq => (bland_between hw hbland (by omega) (by omega)).1, fun q hq _ hmark => ?_⟩
    exact absurd hmark (bland_between hw hbland (by omega) (by omega)).2

/-- No number printed in the text goes past the end of a match that starts before its end. -/
theorem Parts.not_crossed {c s e d : Place} {m : AmountMatch} (h : Parts c s e d m) (hapart : Apart c.text c.index)
    {s' e' : Nat} (hnumber : NumberAt c.text s' e') (hs : s' < d.index) : e' ≤ e.index := by
  obtain ⟨w, hw, hbland, -⟩ := h.lead
  obtain ⟨v, hv, hbland'⟩ := h.trail
  have hlt := h.number.index_lt
  have hcs : c.index ≤ s.index := by
    rw [hw.index]
    exact Nat.le_add_right _ _
  have hstext : s.text = c.text := hw.text
  have hetext : e.text = c.text := h.number.reads.text.trans hw.text
  have hdigit := number_at hnumber
  rcases Nat.lt_or_ge s' c.index with hbefore | hbefore
  · exact (hapart.crossed s' e' hnumber hbefore).trans (hcs.trans hlt.le)
  · rcases Nat.lt_or_ge s' s.index with hlead | hlead
    · obtain ⟨hnodigit, hnomark⟩ := bland_between hw hbland hbefore hlead
      exact absurd hdigit (not_or.2 ⟨hnodigit, hnomark⟩)
    · rcases Nat.lt_or_ge s' e.index with hin | hin
      · exact Quotes.not_crossed h.number (hstext ▸ hnumber) hlead hin
      · obtain ⟨hnodigit, hnomark⟩ := bland_between hv hbland' hin hs
        rw [hetext] at hnodigit hnomark
        exact absurd hdigit (not_or.2 ⟨hnodigit, hnomark⟩)

theorem Parts.whole {c s e d : Place} {m : AmountMatch} (h : Parts c s e d m) (hapart : Apart c.text c.index) :
    NumberWhole c.text ⟨m, c, d⟩ := by
  obtain ⟨w, hw, hbland, hopen⟩ := h.lead
  obtain ⟨v, hv, -⟩ := h.trail
  obtain ⟨hbefore, hjoined⟩ := h.start_apart hapart
  obtain ⟨hafter, hjoined'⟩ := h.number.end_apart
  have hlt := h.number.index_lt
  have hlead := hw.index
  have htrail := hv.index
  rw [hw.text] at hafter hjoined'
  constructor
  · rw [h.start]
    exact hlead ▸ Nat.le_add_right _ _
  · rw [h.start, h.stop]
    exact hlt
  · rw [h.stop]
    exact htrail ▸ Nat.le_add_right _ _
  · rw [h.start]
    unfold startOf
    dsimp only
    split
    · rename_i hunpaired
      rw [Bool.and_eq_true] at hunpaired
      have hpos := List.length_pos_iff.2 (hopen hunpaired.1)
      omega
    · omega
  · have htext : c.text = s.before.reverse ++ (m.digits ++ e.after) := by
      rw [← hw.text, Place.text, h.number.reads.after]
    have hlength : m.digitsEnd - m.digitsStart = m.digits.length := by
      rw [h.start, h.stop, h.number.reads.index, Nat.add_sub_cancel_left]
    dsimp only
    rw [hlength, h.start, htext, List.drop_left' (by rw [List.length_reverse]; rfl), List.take_left' rfl]
  · dsimp only
    rw [h.start, h.stop]
    exact ⟨hbefore, hafter, hjoined, hjoined'⟩
  · intro s' e' hnumber hs he
    dsimp only at hs he ⊢
    rw [h.start] at hs
    rw [h.stop] at he
    have hupto := h.not_crossed hapart hnumber (by omega)
    refine ⟨?_, by rw [h.stop]; omega⟩
    rw [h.start]
    refine Nat.le_antisymm hs ?_
    by_contra hearlier
    rcases Nat.lt_or_ge s' c.index with hbefore' | hbefore'
    · have hcross := hapart.crossed s' e' hnumber hbefore'
      omega
    · obtain ⟨hnodigit, hnomark⟩ := bland_between hw hbland hbefore' (by omega)
      exact absurd (number_at hnumber) (not_or.2 ⟨hnodigit, hnomark⟩)

theorem Parts.apart {c s e d : Place} {m : AmountMatch} (h : Parts c s e d m) (hapart : Apart c.text c.index) :
    Apart c.text d.index := by
  obtain ⟨w, hw, -, -⟩ := h.lead
  obtain ⟨v, hv, hbland⟩ := h.trail
  obtain ⟨hafter, hjoined⟩ := h.number.end_apart
  have hetext : e.text = c.text := h.number.reads.text.trans hw.text
  rw [hw.text] at hafter hjoined
  have hcross : ∀ s' e', NumberAt c.text s' e' → s' < d.index → e' ≤ d.index := fun s' e' hnumber hs =>
    (h.not_crossed hapart hnumber hs).trans (hv.index ▸ Nat.le_add_right _ _)
  cases v with
  | nil =>
    have hsame : e = d := (Reads.refl e).unique hv
    subst hsame
    refine ⟨fun _ _ _ => hafter, fun _ _ _ => hjoined, fun q hq _ hmark => ?_, hcross⟩
    obtain ⟨x, xs, hlast, hx⟩ := h.number.afterDigit
    have hdigit : digitAt c.text (q + 1) := ⟨x, hetext ▸ getElem?_last hlast (by omega), hx⟩
    exact absurd hmark (not_markAt hdigit)
  | cons x xs =>
    have hlength := hv.index
    rw [List.length_cons] at hlength
    have hlast : ∀ q, q + 1 = d.index → ¬ digitAt c.text q ∧ ¬ markAt c.text q := by
      intro q hq
      rw [← hetext]
      exact bland_between hv hbland (by omega) (by omega)
    refine ⟨fun q hq hdigit => absurd hdigit (hlast q hq).1, fun q hq hdigit => absurd hdigit (hlast q hq).1,
      fun q hq _ hmark => absurd hmark (hlast (q + 1) (by omega)).2, hcross⟩

/-- A digit of a match is in its number. -/
theorem Parts.digit_within {c s e d : Place} {m : AmountMatch} (h : Parts c s e d m) {p : Nat} (hp : c.index ≤ p)
    (hp' : p < d.index) (hdigit : digitAt c.text p) : m.digitsStart ≤ p ∧ p < m.digitsEnd := by
  obtain ⟨w, hw, hbland, -⟩ := h.lead
  obtain ⟨v, hv, hbland'⟩ := h.trail
  rw [h.start, h.stop]
  constructor
  · by_contra hlead
    exact (bland_between hw hbland hp (by omega)).1 hdigit
  · by_contra htrail
    have hetext : e.text = c.text := h.number.reads.text.trans hw.text
    exact (bland_between hv hbland' (by omega) hp').1 (hetext.symm ▸ hdigit)

/-- The matches from a place on: each is whole, they follow each other, and every digit is in the number of one. -/
theorem scans_whole {L : LetterClass} {c : Place} {found : List (Match AmountMatch)}
    (h : Scans (amountPattern L) c found) (hapart : Apart c.text c.index) :
    (∀ m ∈ found, c.index ≤ m.start.index ∧ NumberWhole c.text m) ∧
    found.Pairwise (fun m m' => m.stop.index ≤ m'.start.index) ∧
    ∀ p, c.index ≤ p → digitAt c.text p → ∃ m ∈ found, m.value.digitsStart ≤ p ∧ p < m.value.digitsEnd := by
  induction h with
  | @done c _ hafter =>
    refine ⟨fun m hm => absurd hm List.not_mem_nil, .nil, fun p hp hdigit => ?_⟩
    obtain ⟨x, hx, -⟩ := hdigit
    obtain ⟨k, rfl⟩ := Nat.exists_eq_add_of_le hp
    rw [Place.getElem?_after, hafter] at hx
    cases hx
  | @skip c x xs found hfirst hafter _ ih =>
    have htext : (⟨x :: c.before, xs⟩ : Place).text = c.text := by
      rw [Place.text, Place.text, hafter, List.reverse_cons, List.append_assoc, List.singleton_append]
    have hskip := apart_skip hfirst hapart
    rw [htext] at ih
    obtain ⟨hwhole, hpairs, hdigits⟩ := ih hskip
    refine ⟨fun m hm => ⟨(Nat.le_succ _).trans (hwhole m hm).1, (hwhole m hm).2⟩, hpairs, fun p hp hdigit => ?_⟩
    rcases Nat.lt_or_eq_of_le hp with hlt | rfl
    · exact hdigits p hlt hdigit
    · exact absurd (List.append_eq_nil_iff.1 (number_nil hfirst)).1 (plain_ne_nil (digitAt_index.1 hdigit))
  | @hit c d m found hfirst _ ih =>
    obtain ⟨s, e, hparts⟩ := first_parts hfirst
    obtain ⟨w, hw, -, -⟩ := hparts.lead
    obtain ⟨v, hv, -⟩ := hparts.trail
    have htext : d.text = c.text := hv.text.trans (hparts.number.reads.text.trans hw.text)
    have hcd : c.index ≤ d.index := by
      have hlt := hparts.number.index_lt
      have hlead := hw.index
      have htrail := hv.index
      omega
    rw [htext] at ih
    obtain ⟨hwhole, hpairs, hdigits⟩ := ih (hparts.apart hapart)
    refine ⟨fun m' hm' => ?_, List.pairwise_cons.2 ⟨fun m' hm' => (hwhole m' hm').1, hpairs⟩, fun p hp hdigit => ?_⟩
    · rcases List.mem_cons.1 hm' with rfl | hm'
      · exact ⟨le_rfl, hparts.whole hapart⟩
      · exact ⟨hcd.trans (hwhole m' hm').1, (hwhole m' hm').2⟩
    · rcases Nat.lt_or_ge p d.index with hin | hout
      · exact ⟨_, List.mem_cons_self, hparts.digit_within hp hin hdigit⟩
      · obtain ⟨m', hm', hspan⟩ := hdigits p hout hdigit
        exact ⟨m', List.mem_cons_of_mem _ hm', hspan⟩

section
variable (L : LetterClass) (text : Text)

theorem matches_whole : (∀ m ∈ matchAll (amountPattern L) text, NumberWhole text m) ∧
    (matchAll (amountPattern L) text).Pairwise (fun m m' => m.stop.index ≤ m'.start.index) ∧
    ∀ p, digitAt text p → ∃ m ∈ matchAll (amountPattern L) text, m.value.digitsStart ≤ p ∧ p < m.value.digitsEnd := by
  obtain ⟨hwhole, hpairs, hdigits⟩ := scans_whole (matchAll_scans amountPattern_shortens text) (apart_start text)
  exact ⟨fun m hm => (hwhole m hm).2, hpairs, fun p hdigit => hdigits p (Nat.zero_le _) hdigit⟩

/-- The span of an entry. -/
def PrintedAmount.span (n : PrintedAmount) : Nat × Nat := (n.start, n.end)

theorem mem_amountsOf {m : Match AmountMatch} {n : PrintedAmount} (h : n ∈ amountsOf m) :
    n.span = (startOf m, m.stop.index) := by
  obtain ⟨negative, -, rfl⟩ := List.mem_map.1 h
  rfl

theorem amountsOf_ne_nil (m : Match AmountMatch) : amountsOf m ≠ [] := by
  unfold amountsOf AmountMatch.readings
  dsimp only
  split
  · exact List.cons_ne_nil _ _
  · split <;> exact List.cons_ne_nil _ _

/-- **Every digit of a text is in exactly one number span.** -/
theorem digit_spanned {p : Nat} (h : digitAt text p) :
    ∃! span : Nat × Nat, span ∈ (printedAmounts L text).map PrintedAmount.span ∧ span.1 ≤ p ∧ p < span.2 := by
  obtain ⟨hwhole, hpairs, hdigits⟩ := matches_whole L text
  obtain ⟨m, hm, hstart, hend⟩ := hdigits p h
  have hm' := hwhole m hm
  obtain ⟨n, hn⟩ := List.exists_mem_of_ne_nil _ (amountsOf_ne_nil m)
  refine ⟨(startOf m, m.stop.index), ⟨?_, hm'.span.trans hstart, hend.trans_le hm'.stop⟩, ?_⟩
  · rw [← mem_amountsOf hn]
    exact List.mem_map_of_mem (List.mem_flatMap.2 ⟨m, hm, hn⟩)
  · rintro span ⟨hspan, hfrom, hupto⟩
    obtain ⟨n', hn', rfl⟩ := List.mem_map.1 hspan
    obtain ⟨k, hk, hn'⟩ := List.mem_flatMap.1 hn'
    rw [mem_amountsOf hn'] at hfrom hupto ⊢
    have hk' := hwhole k hk
    have hsymm : Std.Symm fun a b : Match AmountMatch => a.stop.index ≤ b.start.index ∨ b.stop.index ≤ a.start.index :=
      ⟨fun _ _ h => Or.symm h⟩
    have hapart : (matchAll (amountPattern L) text).Pairwise
        (fun a b => a.stop.index ≤ b.start.index ∨ b.stop.index ≤ a.start.index) := hpairs.imp fun h => Or.inl h
    -- two matches that hold the digit are one
    have hsame : k = m := by
      by_contra hne
      have hkstart : k.start.index ≤ startOf k := Nat.le_add_right _ _
      have hmstart : m.start.index ≤ startOf m := Nat.le_add_right _ _
      have hspan' := hm'.span
      have hstop := hm'.stop
      dsimp only at hfrom hupto
      rcases hapart.forall hk hm hne with h | h
      · omega
      · omega
    rw [hsame]

end

end Recouple.Quotes
