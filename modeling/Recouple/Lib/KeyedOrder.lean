import Recouple.Lib.KeyedFold

/-!
# Rows in another order, those of one key in the same

Two lists hold the same rows, and the rows of each key follow one another in both as they do in the other
(`Reordered`). Then the `p`-th row of a key in the one is the `p`-th in the other (`SamePlace`), and what is computed
from the places of a key is the same of both.
-/

namespace KeyedOrder

universe u

variable {α κ : Type*} [DecidableEq κ] (key : α → Option κ)

/-- Where the rows of the key stand. -/
def places (rows : List α) (k : κ) : List Nat := (List.range rows.length).filter fun i => rows[i]?.bind key = some k

/-- The same rows, and those of one key in one order. -/
structure Reordered (rows rows' : List α) : Prop where
  perm : rows'.Perm rows
  order : ∀ k, rows'.filter (fun a => key a = some k) = rows.filter fun a => key a = some k

/-- The two rows are the `p`-th of their key. -/
def SamePlace (rows rows' : List α) (i i' : Nat) : Prop :=
  ∃ k p : _, (places key rows k)[(p : Nat)]? = some i ∧ (places key rows' k)[p]? = some i'

variable {key} {rows rows' : List α} {k : κ} {i i' : Nat} {a : α}

theorem mem_places : i ∈ places key rows k ↔ ∃ a, rows[i]? = some a ∧ key a = some k := by
  unfold places
  rw [List.mem_filter, List.mem_range, decide_eq_true_eq, Option.bind_eq_some_iff]
  refine and_iff_right_of_imp ?_
  rintro ⟨a, ha, -⟩
  exact (List.getElem?_eq_some_iff.1 ha).1

theorem nodup_places : (places key rows k).Nodup := List.nodup_range.filter _

/-- The rows at the places of a key are the rows of the key, in their order. -/
theorem map_places (rows : List α) : (places key rows k).map (fun i => rows[i]?) =
    (rows.filter fun a => key a = some k).map some := by
  induction rows using List.reverseRecOn with
  | nil => rfl
  | append_singleton rows a ih =>
    have hold : ∀ i ∈ List.range rows.length, (rows ++ [a])[i]? = rows[i]? := fun i hi =>
      List.getElem?_append_left (List.mem_range.1 hi)
    have hplaces : (List.range rows.length).filter (fun i => (rows ++ [a])[i]?.bind key = some k) = places key rows k :=
      List.filter_congr fun i hi => by rw [hold i hi]
    have hrows : (places key rows k).map (fun i => (rows ++ [a])[i]?) = (places key rows k).map fun i => rows[i]? :=
      List.map_congr_left fun i hi => hold i (List.mem_filter.1 hi).1
    have hlast : (rows ++ [a])[rows.length]? = some a := by simp
    unfold places at *
    rw [List.length_append, List.length_singleton, List.range_succ, List.filter_append, List.map_append, hplaces, hrows, ih,
      List.filter_append, List.map_append, List.filter_singleton, List.filter_singleton, hlast, Option.bind_some]
    by_cases hk : key a = some k
    · simp [hk]
    · simp [hk]

namespace Reordered

/-- Two neighbours of different keys, or of none, change places. -/
theorem swap {l r : List α} {a b : α} (h : ∀ k, key a = some k → key b ≠ some k) :
    Reordered key (l ++ a :: b :: r) (l ++ b :: a :: r) where
  perm := (List.Perm.swap a b r).append_left l
  order k := by
    rw [List.filter_append, List.filter_append]
    by_cases ha : key a = some k
    · simp [ha, h k ha]
    · by_cases hb : key b = some k
      · simp [ha, hb]
      · simp [ha, hb]

theorem map_places_eq (h : Reordered key rows rows') (k : κ) :
    (places key rows' k).map (fun i => rows'[i]?) = (places key rows k).map fun i => rows[i]? := by
  rw [map_places, map_places, h.order]

theorem length_places (h : Reordered key rows rows') (k : κ) :
    (places key rows' k).length = (places key rows k).length := by
  rw [← List.length_map (fun i => rows'[i]?), h.map_places_eq, List.length_map]

/-- Every row of a key has its like in the other list. -/
theorem exists_samePlace (h : Reordered key rows rows') (hi : rows[i]? = some a) (hk : key a = some k) :
    ∃ i', SamePlace key rows rows' i i' := by
  obtain ⟨p, hp, hat⟩ := List.getElem_of_mem (mem_places.2 ⟨a, hi, hk⟩)
  have hp' : p < (places key rows' k).length := by rwa [h.length_places]
  exact ⟨_, k, p, List.getElem?_eq_some_iff.2 ⟨hp, hat⟩, List.getElem?_eq_getElem hp'⟩

theorem exists_samePlace' (h : Reordered key rows rows') (hi : rows'[i']? = some a) (hk : key a = some k) :
    ∃ i, SamePlace key rows rows' i i' := by
  obtain ⟨p, hp, hat⟩ := List.getElem_of_mem (mem_places.2 ⟨a, hi, hk⟩)
  have hp' : p < (places key rows k).length := by rwa [← h.length_places]
  exact ⟨_, k, p, List.getElem?_eq_getElem hp', List.getElem?_eq_some_iff.2 ⟨hp, hat⟩⟩

end Reordered

namespace SamePlace

theorem row (hplace : SamePlace key rows rows' i i') (h : Reordered key rows rows') : rows'[i']? = rows[i]? := by
  obtain ⟨k, p, hi, hi'⟩ := hplace
  have hrows := congrArg (fun l => l[p]?) (h.map_places_eq k)
  simp only [List.getElem?_map, hi, hi', Option.map_some] at hrows
  exact Option.some.inj hrows

/-- The places of the key, one by one: the rows are the same, and the two are found together. -/
theorem forall₂ (hplace : SamePlace key rows rows' i i') (h : Reordered key rows rows') (hi : rows[i]? = some a)
    (hk : key a = some k) :
    (places key rows k).idxOf i = (places key rows' k).idxOf i' ∧
      List.Forall₂ (fun j j' => SamePlace key rows rows' j j' ∧ (j = i ↔ j' = i')) (places key rows k)
        (places key rows' k) := by
  obtain ⟨k', p, hp, hp'⟩ := hplace
  obtain ⟨b, hb, hkey⟩ := mem_places.1 (List.mem_of_getElem? hp)
  cases hi.symm.trans hb
  cases hk.symm.trans hkey
  obtain ⟨hlt, rfl⟩ := List.getElem?_eq_some_iff.1 hp
  obtain ⟨hlt', rfl⟩ := List.getElem?_eq_some_iff.1 hp'
  refine ⟨(nodup_places.idxOf_getElem _ hlt).trans (nodup_places.idxOf_getElem _ hlt').symm, ?_⟩
  refine List.forall₂_iff_get.2 ⟨(h.length_places k).symm, fun q hq hq' => ⟨⟨k, q, ?_, ?_⟩, ?_⟩⟩
  · exact List.getElem?_eq_getElem hq
  · exact List.getElem?_eq_getElem hq'
  · rw [List.get_eq_getElem, List.get_eq_getElem, nodup_places.getElem_inj_iff, nodup_places.getElem_inj_iff]

end SamePlace

/-! ## What is computed from two lists alike -/

variable {β γ : Type*} {f : β → Bool} {g : γ → Bool} {l : List β} {l' : List γ}

theorem any_eq_of_forall₂ (h : List.Forall₂ (fun b c => f b = g c) l l') : l.any f = l'.any g := by
  induction h with
  | nil => rfl
  | cons hbc _ ih => rw [List.any_cons, List.any_cons, hbc, ih]

theorem find?_iff_of_forall₂ {b : β} {c : γ} (h : List.Forall₂ (fun b' c' => f b' = g c' ∧ (b' = b ↔ c' = c)) l l') :
    l.find? f = some b ↔ l'.find? g = some c := by
  induction h with
  | nil => exact iff_of_false nofun nofun
  | cons hbc _ ih =>
    obtain ⟨hfg, hbc⟩ := hbc
    rw [List.find?_cons, List.find?_cons, hfg]
    split
    · rw [Option.some.injEq, Option.some.injEq, hbc]
    · exact ih

/-- A loop over the rows and where they stand whose step does not depend on where. -/
theorem mapM_reordered {ε : Type*} {α β : Type u} {key : α → Option κ} {rows rows' : List α} {f f' : α × Nat → Except ε β}
    {bs : List β} (h : Reordered key rows rows')
    (hf : ∀ i i' a, rows[i]? = some a → rows'[i']? = some a → SamePlace key rows rows' i i' ∨ key a = none →
      f' (a, i') = f (a, i))
    (hbs : rows.zipIdx.mapM f = .ok bs) :
    ∃ bs', rows'.zipIdx.mapM f' = .ok bs' ∧ ∀ i i', SamePlace key rows rows' i i' → bs'[i']? = bs[i]? := by
  have hat : ∀ {i a}, rows[i]? = some a → ∃ b, bs[i]? = some b ∧ f (a, i) = .ok b := fun ha =>
    KeyedFold.getElem?_of_right (KeyedFold.mapM_forall₂ hbs).flip (by rw [List.getElem?_zipIdx, ha, Nat.zero_add]; rfl)
  obtain ⟨bs', hbs'⟩ : ∃ bs', rows'.zipIdx.mapM f' = .ok bs' := by
    refine KeyedFold.mapM_returns ?_
    rintro ⟨a, i'⟩ hentry
    have ha' := List.mk_mem_zipIdx_iff_getElem?.1 hentry
    obtain ⟨i, ha, hplace⟩ : ∃ i, rows[i]? = some a ∧ (SamePlace key rows rows' i i' ∨ key a = none) := by
      cases hk : key a with
      | none =>
        obtain ⟨i, ha⟩ := List.mem_iff_getElem?.1 (h.perm.mem_iff.1 (List.mem_of_getElem? ha'))
        exact ⟨i, ha, .inr rfl⟩
      | some k =>
        obtain ⟨i, hplace⟩ := h.exists_samePlace' ha' hk
        exact ⟨i, (hplace.row h).symm.trans ha', .inl hplace⟩
    obtain ⟨b, -, hb⟩ := hat ha
    exact ⟨b, (hf i i' a ha ha' hplace).trans hb⟩
  refine ⟨bs', hbs', fun i i' hplace => ?_⟩
  obtain ⟨k, p, hi, -⟩ := id hplace
  obtain ⟨a, ha, -⟩ := mem_places.1 (List.mem_of_getElem? hi)
  have ha' := (hplace.row h).trans ha
  obtain ⟨b, hb, hfb⟩ := hat ha
  obtain ⟨b', hb', hfb'⟩ := KeyedFold.getElem?_of_right (KeyedFold.mapM_forall₂ hbs').flip
    (show rows'.zipIdx[i']? = some (a, i') by rw [List.getElem?_zipIdx, ha', Nat.zero_add]; rfl)
  rw [hb, hb']
  cases hfb.symm.trans ((hf i i' a ha ha' (.inl hplace)).symm.trans hfb')
  rfl

end KeyedOrder
