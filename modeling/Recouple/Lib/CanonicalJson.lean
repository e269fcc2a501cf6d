import Recouple.Lib.Json
import Recouple.Lib.SortByKey

/-!
# Canonical JSON

The text of a JSON value with every object's fields in the order of their names and no whitespace. What a value says
is its `Meaning`, in which an object is what it holds under each name and the order its fields were written in is
gone. `canonical_eq_iff`: two values have one canonical text exactly when they say the same.
-/

namespace Js

/-- A JSON value whose numbers are integers. -/
inductive Plain
  | null
  | bool (b : Bool)
  | num (n : Int)
  | str (t : Text)
  | arr (items : List Plain)
  | obj (fields : List (Text × Plain))

/-- What a JSON value says. -/
inductive Meaning
  | null
  | bool (b : Bool)
  | num (n : Int)
  | str (t : Text)
  | arr (items : List Meaning)
  | obj (held : Text → Option Meaning)

/-- Fields in the order of their names, by code unit. -/
def nameLe {α : Type} (p q : Text × α) : Prop := textLe p.1 q.1

instance {α : Type} : DecidableRel (nameLe (α := α)) := fun p q => inferInstanceAs (Decidable (textLe p.1 q.1))

namespace Plain

mutual
/-- The text of a value, without whitespace. -/
def compact : Plain → Text
  | .null => ['n', 'u', 'l', 'l']
  | .bool true => ['t', 'r', 'u', 'e']
  | .bool false => ['f', 'a', 'l', 's', 'e']
  | .num n => decimalInt n
  | .str t => quote t
  | .arr [] => ['[', ']']
  | .arr (v :: vs) => '[' :: compact v ++ compactItems vs ++ [']']
  | .obj [] => ['{', '}']
  | .obj ((k, v) :: fs) => '{' :: quote k ++ ':' :: compact v ++ compactFields fs ++ ['}']
/-- The items after the first. -/
def compactItems : List Plain → Text
  | [] => []
  | v :: vs => ',' :: compact v ++ compactItems vs
/-- The fields after the first. -/
def compactFields : List (Text × Plain) → Text
  | [] => []
  | (k, v) :: fs => ',' :: quote k ++ ':' :: compact v ++ compactFields fs
end

mutual
/-- The value with every object's fields sorted by name. -/
def sorted : Plain → Plain
  | .arr items => .arr (sortedItems items)
  | .obj fields => .obj ((sortedFields fields).insertionSort nameLe)
  | v => v
def sortedItems : List Plain → List Plain
  | [] => []
  | v :: vs => sorted v :: sortedItems vs
def sortedFields : List (Text × Plain) → List (Text × Plain)
  | [] => []
  | (k, v) :: fs => (k, sorted v) :: sortedFields fs
end

def canonical (v : Plain) : Text := compact (sorted v)

mutual
def meaning : Plain → Meaning
  | .null => .null
  | .bool b => .bool b
  | .num n => .num n
  | .str t => .str t
  | .arr items => .arr (meanings items)
  | .obj fields => .obj (held fields)
def meanings : List Plain → List Meaning
  | [] => []
  | v :: vs => meaning v :: meanings vs
/-- What an object of these fields holds under a name. -/
def held : List (Text × Plain) → Text → Option Meaning
  | [], _ => none
  | (k, v) :: fs, name => if k = name then some (meaning v) else held fs name
end

mutual
/-- No object has two fields of one name. -/
def Distinct : Plain → Prop
  | .arr items => DistinctItems items
  | .obj fields => (fields.map Prod.fst).Nodup ∧ DistinctFields fields
  | _ => True
def DistinctItems : List Plain → Prop
  | [] => True
  | v :: vs => Distinct v ∧ DistinctItems vs
def DistinctFields : List (Text × Plain) → Prop
  | [] => True
  | (_, v) :: fs => Distinct v ∧ DistinctFields fs
end

/-! ## The compact text is the value's own -/

/-- Which kind of value a compact text with this first character is; none starts with a closing bracket. -/
def kindOf (c : Char) : Nat :=
  if c = 'n' then 0 else if c = 't' then 1 else if c = 'f' then 2 else if c = '"' then 4
  else if c = '[' then 5 else if c = '{' then 6 else if c = ']' then 7 else 3

def kind : Plain → Nat
  | .null => 0
  | .bool true => 1
  | .bool false => 2
  | .num _ => 3
  | .str _ => 4
  | .arr _ => 5
  | .obj _ => 6

theorem kindOf_digit {c : Char} (h : c.isDigit = true ∨ c = '-') : kindOf c = 3 := by
  rcases h with h | rfl
  · have hne : ∀ d : Char, d.isDigit = false → c ≠ d := by
      rintro d hd rfl
      simp [h] at hd
    unfold kindOf
    simp [hne 'n' (by decide), hne 't' (by decide), hne 'f' (by decide), hne '"' (by decide),
      hne '[' (by decide), hne '\x7b' (by decide), hne ']' (by decide)]
  · decide

theorem compact_head : ∀ v : Plain, ∃ c cs, compact v = c :: cs ∧ kindOf c = kind v
  | .null => ⟨'n', _, by rw [compact], rfl⟩
  | .bool true => ⟨'t', _, by rw [compact], rfl⟩
  | .bool false => ⟨'f', _, by rw [compact], rfl⟩
  | .num n => by
    obtain ⟨c, cs, h, hc⟩ := decimalInt_head n
    exact ⟨c, cs, by rw [compact, h], kindOf_digit hc⟩
  | .str t => ⟨'"', _, by rw [compact, quote]; rfl, rfl⟩
  | .arr [] => ⟨'[', _, by rw [compact], rfl⟩
  | .arr (v :: vs) => ⟨'[', _, by rw [compact]; rfl, rfl⟩
  | .obj [] => ⟨'\x7b', _, by rw [compact], rfl⟩
  | .obj ((k, v) :: fs) => ⟨'\x7b', _, by rw [compact]; rfl, rfl⟩

theorem kind_eq_of_compact {v w : Plain} {r s : Text} (h : compact v ++ r = compact w ++ s) : kind v = kind w := by
  obtain ⟨c, cs, hv, hc⟩ := compact_head v
  obtain ⟨c', cs', hw, hc'⟩ := compact_head w
  rw [hv, hw, List.cons_append, List.cons_append, List.cons.injEq] at h
  rw [← hc, ← hc', h.1]

theorem compact_append_ne {v : Plain} {r s : Text} : compact v ++ r ≠ ']' :: s := fun h => by
  obtain ⟨c, cs, hv, hc⟩ := compact_head v
  rw [hv, List.cons_append, List.cons.injEq] at h
  have hseven : kind v = 7 := by rw [← hc, h.1]; decide
  rcases v with _ | ⟨_ | _⟩ | _ | _ | _ | _ <;> simp [kind] at hseven

/-- What stands after an item or a field: a comma, or the closing bracket. -/
def Closes (close : Char) (r : Text) : Prop := r.head? = some ',' ∨ r.head? = some close

theorem Closes.noDigitNext {close : Char} {r : Text} (hclose : close.isDigit = false) (h : Closes close r) :
    NoDigitNext r := by
  intro c hc
  rcases h with h | h
  · rw [h, Option.some.injEq] at hc
    subst hc
    decide
  · rw [h, Option.some.injEq] at hc
    subst hc
    exact hclose

theorem closes_items (vs : List Plain) {close : Char} (r : Text) : Closes close (compactItems vs ++ close :: r) := by
  cases vs with
  | nil => exact .inr rfl
  | cons v vs => exact .inl (by rw [compactItems]; rfl)

theorem closes_fields (fs : List (Text × Plain)) {close : Char} (r : Text) :
    Closes close (compactFields fs ++ close :: r) := by
  match fs with
  | [] => exact .inr rfl
  | (k, v) :: fs => exact .inl (by rw [compactFields]; rfl)

mutual
/-- A value can be told off the front of a text that goes on without a digit. -/
theorem compact_append_inj : ∀ {v w : Plain} {r s : Text}, NoDigitNext r → NoDigitNext s →
    compact v ++ r = compact w ++ s → v = w ∧ r = s
  | .null, w, r, s, hr, hs, h => by
    have hk := kind_eq_of_compact h
    rcases w with _ | ⟨_ | _⟩ | _ | _ | _ | _ <;> simp [kind] at hk
    simpa [compact] using h
  | .bool true, w, r, s, hr, hs, h => by
    have hk := kind_eq_of_compact h
    rcases w with _ | ⟨_ | _⟩ | _ | _ | _ | _ <;> simp [kind] at hk
    simpa [compact] using h
  | .bool false, w, r, s, hr, hs, h => by
    have hk := kind_eq_of_compact h
    rcases w with _ | ⟨_ | _⟩ | _ | _ | _ | _ <;> simp [kind] at hk
    simpa [compact] using h
  | .num n, w, r, s, hr, hs, h => by
    have hk := kind_eq_of_compact h
    rcases w with _ | ⟨_ | _⟩ | m | _ | _ | _ <;> simp [kind] at hk
    rw [compact, compact] at h
    obtain ⟨rfl, rfl⟩ := decimalInt_append_inj hr hs h
    exact ⟨rfl, rfl⟩
  | .str t, w, r, s, hr, hs, h => by
    have hk := kind_eq_of_compact h
    rcases w with _ | ⟨_ | _⟩ | _ | u | _ | _ <;> simp [kind] at hk
    rw [compact, compact] at h
    obtain ⟨rfl, rfl⟩ := quote_append_inj h
    exact ⟨rfl, rfl⟩
  | .arr [], w, r, s, hr, hs, h => by
    have hk := kind_eq_of_compact h
    rcases w with _ | ⟨_ | _⟩ | _ | _ | ws | _ <;> simp [kind] at hk
    match ws with
    | [] => simpa [compact] using h
    | w :: ws =>
      simp only [compact, List.cons_append, List.append_assoc, List.cons.injEq, true_and, List.nil_append] at h
      exact absurd h.symm compact_append_ne
  | .arr (v :: vs), w, r, s, hr, hs, h => by
    have hk := kind_eq_of_compact h
    rcases w with _ | ⟨_ | _⟩ | _ | _ | ws | _ <;> simp [kind] at hk
    match ws with
    | [] =>
      simp only [compact, List.cons_append, List.append_assoc, List.cons.injEq, true_and, List.nil_append] at h
      exact absurd h compact_append_ne
    | w :: ws =>
      simp only [compact, List.cons_append, List.append_assoc, List.cons.injEq, true_and, List.nil_append] at h
      obtain ⟨rfl, h2⟩ := compact_append_inj ((closes_items vs r).noDigitNext (by decide))
        ((closes_items ws s).noDigitNext (by decide)) h
      obtain ⟨rfl, h3⟩ := compactItems_append_inj h2
      exact ⟨rfl, h3⟩
  | .obj [], w, r, s, hr, hs, h => by
    have hk := kind_eq_of_compact h
    rcases w with _ | ⟨_ | _⟩ | _ | _ | _ | ws <;> simp [kind] at hk
    match ws with
    | [] => simpa [compact] using h
    | (k, w) :: ws => simp [compact, quote] at h
  | .obj ((k, v) :: fs), w, r, s, hr, hs, h => by
    have hk := kind_eq_of_compact h
    rcases w with _ | ⟨_ | _⟩ | _ | _ | _ | ws <;> simp [kind] at hk
    match ws with
    | [] => simp [compact, quote] at h
    | (k', w) :: ws =>
      simp only [compact, List.cons_append, List.append_assoc, List.cons.injEq, true_and, List.nil_append] at h
      obtain ⟨rfl, h1⟩ := quote_append_inj h
      simp only [List.cons.injEq, true_and] at h1
      obtain ⟨rfl, h2⟩ := compact_append_inj ((closes_fields fs r).noDigitNext (by decide))
        ((closes_fields ws s).noDigitNext (by decide)) h1
      obtain ⟨rfl, h3⟩ := compactFields_append_inj h2
      exact ⟨rfl, h3⟩
theorem compactItems_append_inj : ∀ {vs ws : List Plain} {r s : Text},
    compactItems vs ++ ']' :: r = compactItems ws ++ ']' :: s → vs = ws ∧ r = s
  | [], [], r, s, h => ⟨rfl, by simpa [compactItems] using h⟩
  | [], w :: ws, r, s, h => by simp [compactItems] at h
  | v :: vs, [], r, s, h => by simp [compactItems] at h
  | v :: vs, w :: ws, r, s, h => by
    simp only [compactItems, List.cons_append, List.append_assoc, List.cons.injEq, true_and] at h
    obtain ⟨rfl, h2⟩ := compact_append_inj ((closes_items vs r).noDigitNext (by decide))
      ((closes_items ws s).noDigitNext (by decide)) h
    obtain ⟨rfl, h3⟩ := compactItems_append_inj h2
    exact ⟨rfl, h3⟩
theorem compactFields_append_inj : ∀ {vs ws : List (Text × Plain)} {r s : Text},
    compactFields vs ++ '\x7d' :: r = compactFields ws ++ '\x7d' :: s → vs = ws ∧ r = s
  | [], [], r, s, h => ⟨rfl, by simpa [compactFields] using h⟩
  | [], (k, w) :: ws, r, s, h => by simp [compactFields] at h
  | (k, v) :: vs, [], r, s, h => by simp [compactFields] at h
  | (k, v) :: vs, (k', w) :: ws, r, s, h => by
    simp only [compactFields, List.cons_append, List.append_assoc, List.cons.injEq, true_and] at h
    obtain ⟨rfl, h1⟩ := quote_append_inj h
    simp only [List.cons.injEq, true_and] at h1
    obtain ⟨rfl, h2⟩ := compact_append_inj ((closes_fields vs r).noDigitNext (by decide))
      ((closes_fields ws s).noDigitNext (by decide)) h1
    obtain ⟨rfl, h3⟩ := compactFields_append_inj h2
    exact ⟨rfl, h3⟩
end

theorem compact_injective : Function.Injective compact := fun v w h => by
  have hn : NoDigitNext ([] : Text) := by intro c hc; simp at hc
  exact (compact_append_inj hn hn (by simpa using h)).1

/-! ## Fields as a table of names -/

theorem mem_sortedFields {k : Text} {x : Plain} : ∀ {fs : List (Text × Plain)},
    (k, x) ∈ sortedFields fs ↔ ∃ v, (k, v) ∈ fs ∧ sorted v = x
  | [] => by simp [sortedFields]
  | (k', v) :: fs => by
    rw [sortedFields, List.mem_cons, mem_sortedFields]
    constructor
    · rintro (h | ⟨w, hw, rfl⟩)
      · cases h
        exact ⟨v, List.mem_cons_self, rfl⟩
      · exact ⟨w, List.mem_cons_of_mem _ hw, rfl⟩
    · rintro ⟨w, hw, rfl⟩
      rcases List.mem_cons.1 hw with h | h
      · cases h
        exact .inl rfl
      · exact .inr ⟨w, h, rfl⟩

@[simp] theorem map_fst_sortedFields : ∀ fs : List (Text × Plain),
    (sortedFields fs).map Prod.fst = fs.map Prod.fst
  | [] => rfl
  | (k, v) :: fs => by rw [sortedFields, List.map_cons, List.map_cons, map_fst_sortedFields fs]

theorem held_eq_some {k : Text} {m : Meaning} : ∀ {fs : List (Text × Plain)}, (fs.map Prod.fst).Nodup →
    (held fs k = some m ↔ ∃ v, (k, v) ∈ fs ∧ meaning v = m)
  | [], _ => by simp [held]
  | (k', v) :: fs, hn => by
    rw [List.map_cons, List.nodup_cons] at hn
    rw [held]
    by_cases hk : k' = k
    · subst hk
      rw [if_pos rfl, Option.some.injEq]
      constructor
      · rintro rfl
        exact ⟨v, List.mem_cons_self, rfl⟩
      · rintro ⟨w, hw, rfl⟩
        rcases List.mem_cons.1 hw with h | h
        · cases h
          rfl
        · exact absurd (List.mem_map.2 ⟨_, h, rfl⟩) hn.1
    · rw [if_neg hk, held_eq_some hn.2]
      constructor
      · rintro ⟨w, hw, rfl⟩
        exact ⟨w, List.mem_cons_of_mem _ hw, rfl⟩
      · rintro ⟨w, hw, rfl⟩
        rcases List.mem_cons.1 hw with h | h
        · cases h
          exact absurd rfl hk
        · exact ⟨w, h, rfl⟩

theorem held_perm {fs gs : List (Text × Plain)} (hn : (fs.map Prod.fst).Nodup) (h : fs.Perm gs) :
    held fs = held gs := by
  have hn' : (gs.map Prod.fst).Nodup := (h.map Prod.fst).nodup_iff.1 hn
  funext k
  apply Option.ext
  intro m
  rw [held_eq_some hn, held_eq_some hn']
  simp only [h.mem_iff]

theorem meanings_eq_map : ∀ vs : List Plain, meanings vs = vs.map meaning
  | [] => rfl
  | v :: vs => by rw [meanings, meanings_eq_map vs, List.map_cons]

/-- Objects of the same names in the same order say the same exactly where their values do, one by one. -/
theorem meanings_eq_of_held : ∀ {fs gs : List (Text × Plain)}, held fs = held gs → (fs.map Prod.fst).Nodup →
    fs.map Prod.fst = gs.map Prod.fst → meanings (fs.map Prod.snd) = meanings (gs.map Prod.snd)
  | [], gs, _, _, hk => by
    rw [List.map_nil, eq_comm, List.map_eq_nil_iff] at hk
    rw [hk]
  | (k, v) :: fs, [], _, _, hk => by simp at hk
  | (k, v) :: fs, (k', w) :: gs, h, hn, hk => by
    simp only [List.map_cons, List.cons.injEq] at hk
    obtain ⟨hkk, hks⟩ := hk
    cases hkk
    have hn' : ((k, w) :: gs).map Prod.fst |>.Nodup := by rwa [List.map_cons, ← hks]
    rw [List.map_cons, List.nodup_cons] at hn hn'
    have hfirst := congrFun h k
    rw [held, held, if_pos rfl, if_pos rfl, Option.some.injEq] at hfirst
    have hrest : held fs = held gs := by
      funext name
      by_cases hname : k = name
      · subst hname
        have hnone : ∀ {es : List (Text × Plain)}, (es.map Prod.fst).Nodup → k ∉ es.map Prod.fst → held es k = none := by
          intro es hes hmem
          rw [Option.eq_none_iff_forall_ne_some]
          intro m hm
          obtain ⟨v, hv, -⟩ := (held_eq_some hes).1 hm
          exact hmem (List.mem_map.2 ⟨_, hv, rfl⟩)
        rw [hnone hn.2 hn.1, hnone hn'.2 hn'.1]
      · have := congrFun h name
        rwa [held, held, if_neg hname, if_neg hname] at this
    rw [List.map_cons, List.map_cons, meanings, meanings, hfirst, meanings_eq_of_held hrest hn.2 hks]

theorem distinctItems_iff : ∀ {vs : List Plain}, DistinctItems vs ↔ ∀ v ∈ vs, Distinct v
  | [] => by simp [DistinctItems]
  | v :: vs => by rw [DistinctItems, distinctItems_iff, List.forall_mem_cons]

theorem distinct_of_mem {p : Text × Plain} : ∀ {fs : List (Text × Plain)}, DistinctFields fs → p ∈ fs → Distinct p.2
  | (k, v) :: fs, h, hp => by
    rw [DistinctFields] at h
    rcases List.mem_cons.1 hp with rfl | hp
    · exact h.1
    · exact distinct_of_mem h.2 hp

/-! ## Sorting keeps what a value says -/

mutual
theorem meaning_sorted : ∀ {v : Plain}, Distinct v → meaning (sorted v) = meaning v
  | .null, _ => rfl
  | .bool _, _ => rfl
  | .num _, _ => rfl
  | .str _, _ => rfl
  | .arr items, h => by rw [sorted, meaning, meaning, meanings_sortedItems h]
  | .obj fields, h => by
    rw [Distinct] at h
    have hn : (((sortedFields fields).insertionSort nameLe).map Prod.fst).Nodup := by
      rw [((List.perm_insertionSort nameLe _).map Prod.fst).nodup_iff, map_fst_sortedFields]
      exact h.1
    rw [sorted, meaning, meaning, held_perm hn (List.perm_insertionSort nameLe _), held_sortedFields h.2]
theorem meanings_sortedItems : ∀ {vs : List Plain}, DistinctItems vs → meanings (sortedItems vs) = meanings vs
  | [], _ => rfl
  | v :: vs, h => by
    rw [DistinctItems] at h
    rw [sortedItems, meanings, meanings, meaning_sorted h.1, meanings_sortedItems h.2]
theorem held_sortedFields : ∀ {fs : List (Text × Plain)}, DistinctFields fs → held (sortedFields fs) = held fs
  | [], _ => rfl
  | (k, v) :: fs, h => by
    rw [DistinctFields] at h
    funext name
    rw [sortedFields, held, held, meaning_sorted h.1, held_sortedFields h.2]
end

/-! ## Values that say the same are sorted alike -/

theorem insertionSort_nameLe_congr {fs gs : List (Text × Plain)} (hn : (fs.map Prod.fst).Nodup) (h : fs.Perm gs) :
    fs.insertionSort nameLe = gs.insertionSort nameLe := by
  have hkeys : (fs.map fun p => codeUnits p.1).Nodup := by
    have := hn.map codeUnits_injective
    rwa [List.map_map] at this
  exact SortByKey.insertionSort_congr (fun _ _ => Iff.rfl) h hkeys

/-- Two tables of distinct names hold the same under each name, and what holds the same is sorted alike: the sorted
fields are the same up to order. -/
theorem sortedFields_perm {fs gs : List (Text × Plain)} (hf : (fs.map Prod.fst).Nodup) (hg : (gs.map Prod.fst).Nodup)
    (h : held fs = held gs) (hs : ∀ p ∈ fs, ∀ q ∈ gs, meaning p.2 = meaning q.2 → sorted p.2 = sorted q.2) :
    (sortedFields fs).Perm (sortedFields gs) := by
  have hf' : (sortedFields fs).Nodup := List.Nodup.of_map Prod.fst (by rwa [map_fst_sortedFields])
  have hg' : (sortedFields gs).Nodup := List.Nodup.of_map Prod.fst (by rwa [map_fst_sortedFields])
  rw [List.perm_ext_iff_of_nodup hf' hg']
  rintro ⟨k, x⟩
  rw [mem_sortedFields, mem_sortedFields]
  constructor
  · rintro ⟨v, hv, rfl⟩
    have hheld : held gs k = some (meaning v) := by rw [← h, held_eq_some hf]; exact ⟨v, hv, rfl⟩
    obtain ⟨w, hw, hwv⟩ := (held_eq_some hg).1 hheld
    exact ⟨w, hw, (hs _ hv _ hw hwv.symm).symm⟩
  · rintro ⟨w, hw, rfl⟩
    have hheld : held fs k = some (meaning w) := by rw [h, held_eq_some hg]; exact ⟨w, hw, rfl⟩
    obtain ⟨v, hv, hvw⟩ := (held_eq_some hf).1 hheld
    exact ⟨v, hv, hs _ hv _ hw hvw⟩

mutual
theorem sorted_eq_of_meaning : ∀ {v w : Plain}, Distinct v → Distinct w → meaning v = meaning w → sorted v = sorted w
  | .null, w, _, _, h => by cases w <;> simp [meaning] at h ⊢
  | .bool _, w, _, _, h => by cases w <;> simp [meaning, sorted] at h ⊢; exact h
  | .num _, w, _, _, h => by cases w <;> simp [meaning, sorted] at h ⊢; exact h
  | .str _, w, _, _, h => by cases w <;> simp [meaning, sorted] at h ⊢; exact h
  | .arr vs, w, hv, hw, h => by
    cases w with
    | arr ws =>
      rw [meaning, meaning, Meaning.arr.injEq] at h
      rw [sorted, sorted, sortedItems_eq_of_meanings hv hw h]
    | _ => simp [meaning] at h
  | .obj fs, w, hv, hw, h => by
    cases w with
    | obj gs =>
      rw [meaning, meaning, Meaning.obj.injEq] at h
      rw [Distinct] at hv hw
      have hperm := sortedFields_perm hv.1 hw.1 h fun p hp q hq hm =>
        sorted_eq_of_mem hv.2 p hp (distinct_of_mem hw.2 hq) hm
      rw [sorted, sorted, insertionSort_nameLe_congr (by rw [map_fst_sortedFields]; exact hv.1) hperm]
    | _ => simp [meaning] at h
theorem sortedItems_eq_of_meanings : ∀ {vs ws : List Plain}, DistinctItems vs → DistinctItems ws →
    meanings vs = meanings ws → sortedItems vs = sortedItems ws
  | [], [], _, _, _ => rfl
  | [], w :: ws, _, _, h => by simp [meanings] at h
  | v :: vs, [], _, _, h => by simp [meanings] at h
  | v :: vs, w :: ws, hv, hw, h => by
    rw [DistinctItems] at hv hw
    rw [meanings, meanings, List.cons.injEq] at h
    rw [sortedItems, sortedItems, sorted_eq_of_meaning hv.1 hw.1 h.1, sortedItems_eq_of_meanings hv.2 hw.2 h.2]
theorem sorted_eq_of_mem : ∀ {fs : List (Text × Plain)}, DistinctFields fs → ∀ p ∈ fs, ∀ {w : Plain}, Distinct w →
    meaning p.2 = meaning w → sorted p.2 = sorted w
  | (k, v) :: fs, hv, p, hp, w, hw, h => by
    rw [DistinctFields] at hv
    rcases List.mem_cons.1 hp with hp | hp
    · subst hp
      exact sorted_eq_of_meaning hv.1 hw h
    · exact sorted_eq_of_mem hv.2 p hp hw h
end

/-- **Two values have one canonical text exactly when they say the same.** -/
theorem canonical_eq_iff {v w : Plain} (hv : Distinct v) (hw : Distinct w) :
    canonical v = canonical w ↔ meaning v = meaning w := by
  constructor
  · intro h
    rw [← meaning_sorted hv, ← meaning_sorted hw, compact_injective h]
  · intro h
    rw [canonical, canonical, sorted_eq_of_meaning hv hw h]

end Plain
end Js
