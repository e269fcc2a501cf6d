import Mathlib

/-!
# First copy of each key

`firstBy key l` is the loop that walks a list with a set of the keys already seen and keeps a row
only when its key is new: what `if (seen.has(k)) continue; seen.add(k); out.push(row)` builds, and
also the insertion order of a `Map` filled by `if (!map.has(k)) map.set(k, row)`. `firstSeen` is the
case where a value is its own key.

What the loop keeps of each key does not depend on the rows of any other key (`find_firstBy`); which
keys it keeps does not depend on the order of the rows at all (`mem_map_firstBy`), and the list
itself depends on the order exactly when two keys are kept (`firstSeen_eq_of_subsingleton`,
`firstSeen_cons_head`).
-/

namespace FirstSeen

variable {α κ : Type*} [DecidableEq κ]

/-- The loop, `seen` the keys already kept. -/
def firstByFrom (key : α → κ) : List κ → List α → List α
  | _, [] => []
  | seen, a :: as =>
    if key a ∈ seen then firstByFrom key seen as else a :: firstByFrom key (key a :: seen) as

def firstBy (key : α → κ) (l : List α) : List α := firstByFrom key [] l

/-- The values of a list, each at its first place. -/
def firstSeen [DecidableEq α] (l : List α) : List α := firstBy id l

section
variable (key : α → κ)

theorem firstByFrom_sublist : ∀ (seen : List κ) (l : List α), (firstByFrom key seen l).Sublist l
  | _, [] => List.Sublist.slnil
  | seen, a :: as => by
    simp only [firstByFrom]
    split
    · exact (firstByFrom_sublist seen as).cons a
    · exact (firstByFrom_sublist _ as).cons_cons a

theorem firstBy_sublist (l : List α) : (firstBy key l).Sublist l := firstByFrom_sublist key [] l

theorem mem_of_mem_firstBy {a : α} {l : List α} (h : a ∈ firstBy key l) : a ∈ l :=
  (firstBy_sublist key l).subset h

theorem mem_map_firstByFrom : ∀ (seen : List κ) (l : List α) (k : κ),
    k ∈ (firstByFrom key seen l).map key ↔ k ∈ l.map key ∧ k ∉ seen
  | _, [], _ => by simp [firstByFrom]
  | seen, a :: as, k => by
    simp only [firstByFrom]
    split
    · rename_i ha
      rw [mem_map_firstByFrom seen as k]
      constructor
      · rintro ⟨h, hs⟩; exact ⟨List.mem_cons_of_mem _ h, hs⟩
      · rintro ⟨h, hs⟩
        rcases List.mem_cons.1 h with rfl | h
        · exact absurd ha hs
        · exact ⟨h, hs⟩
    · rename_i ha
      rw [List.map_cons, List.mem_cons, mem_map_firstByFrom _ as k, List.map_cons, List.mem_cons]
      by_cases hk : k = key a
      · subst hk; simp [ha]
      · simp [hk]

/-- A key is kept exactly when some row carries it. -/
theorem mem_map_firstBy (l : List α) (k : κ) : k ∈ (firstBy key l).map key ↔ k ∈ l.map key := by
  simp [firstBy, mem_map_firstByFrom]

theorem nodup_firstByFrom : ∀ (seen : List κ) (l : List α), ((firstByFrom key seen l).map key).Nodup
  | _, [] => by simp [firstByFrom]
  | seen, a :: as => by
    simp only [firstByFrom]
    split
    · exact nodup_firstByFrom seen as
    · rw [List.map_cons, List.nodup_cons, mem_map_firstByFrom]
      exact ⟨by simp, nodup_firstByFrom _ as⟩

theorem nodup_firstBy (l : List α) : ((firstBy key l).map key).Nodup := nodup_firstByFrom key [] l

/-- The kept row of a key is the first one that carries it. -/
theorem find_firstByFrom : ∀ (seen : List κ) (l : List α) (k : κ), k ∉ seen →
    (firstByFrom key seen l).find? (fun a => key a = k) = l.find? (fun a => key a = k)
  | _, [], _, _ => by simp [firstByFrom]
  | seen, a :: as, k, hk => by
    simp only [firstByFrom]
    by_cases hak : key a = k
    · have ha : key a ∉ seen := hak ▸ hk
      rw [if_neg ha, List.find?_cons_of_pos (by simpa using hak),
        List.find?_cons_of_pos (by simpa using hak)]
    · split
      · rw [find_firstByFrom seen as k hk, List.find?_cons_of_neg (by simpa using hak)]
      · rw [List.find?_cons_of_neg (by simpa using hak), List.find?_cons_of_neg (by simpa using hak),
          find_firstByFrom _ as k (by simp [hk]; exact Ne.symm hak)]

theorem find_firstBy (l : List α) (k : κ) :
    (firstBy key l).find? (fun a => key a = k) = l.find? (fun a => key a = k) :=
  find_firstByFrom key [] l k (by simp)

/-- Nothing is dropped from rows whose keys are already distinct. -/
theorem firstByFrom_eq_self : ∀ (seen : List κ) (l : List α), (l.map key).Nodup →
    (∀ a ∈ l, key a ∉ seen) → firstByFrom key seen l = l
  | _, [], _, _ => rfl
  | seen, a :: as, hn, hs => by
    have ha : key a ∉ seen := hs a (by simp)
    rw [List.map_cons, List.nodup_cons] at hn
    simp only [firstByFrom, ha, ↓reduceIte]
    rw [firstByFrom_eq_self _ as hn.2]
    intro b hb hmem
    rcases List.mem_cons.1 hmem with h | h
    · exact hn.1 (List.mem_map.2 ⟨b, hb, h⟩)
    · exact hs b (by simp [hb]) h

theorem firstBy_eq_self {l : List α} (hn : (l.map key).Nodup) : firstBy key l = l :=
  firstByFrom_eq_self key [] l hn (by simp)

end

/-! ## Values as their own keys -/

section
variable [DecidableEq α]

@[simp] theorem mem_firstSeen {a : α} {l : List α} : a ∈ firstSeen l ↔ a ∈ l := by
  have := mem_map_firstBy (id : α → α) l a
  simpa [firstSeen] using this

theorem nodup_firstSeen (l : List α) : (firstSeen l).Nodup := by
  simpa [firstSeen] using nodup_firstBy (id : α → α) l

theorem firstByFrom_id_append : ∀ (seen l : List α) (v : α),
    firstByFrom id seen (l ++ [v]) =
      if v ∈ seen ∨ v ∈ l then firstByFrom id seen l else firstByFrom id seen l ++ [v]
  | seen, [], v => by by_cases h : v ∈ seen <;> simp [firstByFrom, h]
  | seen, a :: as, v => by
    simp only [List.cons_append, firstByFrom, id_eq]
    by_cases ha : a ∈ seen
    · simp only [ha, ↓reduceIte]
      rw [firstByFrom_id_append seen as v]
      by_cases hv : v = a
      · subst hv; simp [ha]
      · simp [hv]
    · simp only [ha, ↓reduceIte]
      rw [firstByFrom_id_append (a :: seen) as v]
      have hiff : v ∈ a :: seen ∨ v ∈ as ↔ v ∈ seen ∨ v ∈ a :: as := by
        rw [List.mem_cons, List.mem_cons]; tauto
      by_cases h : v ∈ a :: seen ∨ v ∈ as
      · rw [if_pos h, if_pos (hiff.1 h)]
      · rw [if_neg h, if_neg (fun h' => h (hiff.2 h')), List.cons_append]

/-- One more value at the end is kept exactly when it is new. -/
theorem firstSeen_concat (l : List α) (v : α) :
    firstSeen (l ++ [v]) = if v ∈ l then firstSeen l else firstSeen l ++ [v] := by
  simp [firstSeen, firstBy, firstByFrom_id_append]

/-- What is appended changes the values kept only through what is kept of it. -/
theorem firstSeen_append_congr {l l' : List α} (h : firstSeen l = firstSeen l') (r : List α) :
    firstSeen (l ++ r) = firstSeen (l' ++ r) := by
  induction r using List.reverseRecOn with
  | nil => simpa using h
  | append_singleton r v ih =>
    have hm : v ∈ l ++ r ↔ v ∈ l' ++ r := by rw [← mem_firstSeen, ih, mem_firstSeen]
    rw [← List.append_assoc, ← List.append_assoc, firstSeen_concat, firstSeen_concat, ih]
    simp only [hm]

theorem firstSeen_cons_head (a : α) (l : List α) : (firstSeen (a :: l)).head? = some a := by
  simp [firstSeen, firstBy, firstByFrom]

/-- With at most one value to keep, the order of the list says nothing. -/
theorem firstSeen_eq_of_subsingleton {l l' : List α} (h : ∀ a, a ∈ l ↔ a ∈ l')
    (hs : ∀ a ∈ l, ∀ b ∈ l, a = b) : firstSeen l = firstSeen l' := by
  have hp : (firstSeen l).Perm (firstSeen l') :=
    (List.perm_ext_iff_of_nodup (nodup_firstSeen l) (nodup_firstSeen l')).2 (by simp [h])
  cases hl : firstSeen l with
  | nil => rw [hl] at hp; exact hp.nil_eq
  | cons a as =>
    cases as with
    | nil => rw [hl] at hp; exact List.singleton_perm.1 hp
    | cons b bs =>
      have hn := nodup_firstSeen l
      have ha : a ∈ l := mem_firstSeen.1 (by simp [hl])
      have hb : b ∈ l := mem_firstSeen.1 (by simp [hl])
      rw [hl, hs a ha b hb] at hn
      simp at hn

end

section
variable {key : α → κ}

theorem firstByFrom_eq_filterMap : ∀ (seen : List κ) (l : List α),
    firstByFrom key seen l =
      (firstByFrom id seen (l.map key)).filterMap fun k => l.find? fun a => key a = k
  | _, [] => rfl
  | seen, a :: as => by
    -- a key that is still to come is not the key of `a`
    have skip : ∀ seen', key a ∈ seen' →
        (firstByFrom id seen' (as.map key)).filterMap (fun k => (a :: as).find? fun b => key b = k) =
          (firstByFrom id seen' (as.map key)).filterMap fun k => as.find? fun b => key b = k := by
      intro seen' ha
      refine List.filterMap_congr fun k hk => ?_
      have hk' : k ∈ (firstByFrom id seen' (as.map key)).map id := by simpa using hk
      have hne : key a ≠ k := by
        rintro rfl
        exact ((mem_map_firstByFrom id seen' (as.map key) _).1 hk').2 ha
      rw [List.find?_cons_of_neg (by simpa using hne)]
    simp only [firstByFrom, List.map_cons, id_eq]
    by_cases ha : key a ∈ seen
    · rw [if_pos ha, if_pos ha, skip seen ha, firstByFrom_eq_filterMap seen as]
    · rw [if_neg ha, if_neg ha, List.filterMap_cons_some (b := a) (by simp),
        skip _ (by simp), firstByFrom_eq_filterMap _ as]

/-- The list is the first row of each key, in the order the keys are first seen. -/
theorem firstBy_eq_filterMap (l : List α) :
    firstBy key l = (firstSeen (l.map key)).filterMap fun k => l.find? fun a => key a = k :=
  firstByFrom_eq_filterMap [] l

end

end FirstSeen
