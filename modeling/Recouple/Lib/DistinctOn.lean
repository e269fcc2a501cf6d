import Recouple.Lib.FirstSeen
import Recouple.Lib.SortByKey

/-!
# The latest row of each key

`distinctOn key stamp rows` is `select distinct on (key) … order by key, stamp desc`: the rows sorted, and the first of
each key. It is the rows that no row of their key is later than (`mem_distinctOn`), in the order of the keys
(`pairwise_distinctOn`). The first of a list in order are those with few keys before theirs (`mem_take_iff`).
-/

namespace DistinctOn
open FirstSeen

variable {α κ : Type*} [LinearOrder κ] (key : α → κ) (stamp : α → ℕ)

/-- `order by key, stamp desc` -/
def Before (a b : α) : Prop := key a < key b ∨ key a = key b ∧ stamp b ≤ stamp a

instance : DecidableRel (Before key stamp) := fun a b => inferInstanceAs (Decidable (key a < key b ∨ _))

def distinctOn (rows : List α) : List α := firstBy key (rows.insertionSort (Before key stamp))

variable {key stamp} {rows : List α}

/-- The order is by the key and the stamp, the later first. -/
theorem before_iff (a b : α) : Before key stamp a b ↔
    toLex (key a, OrderDual.toDual (stamp a)) ≤ toLex (key b, OrderDual.toDual (stamp b)) := by
  rw [Prod.Lex.toLex_le_toLex]
  rfl

/-- A row stands before the later rows of its list in a list's order. -/
theorem find_pairwise {r : α → α → Prop} {l : List α} (h : l.Pairwise r) {p : α → Bool} {a b : α}
    (ha : l.find? p = some a) (hb : b ∈ l) (hp : p b = true) : b = a ∨ r a b := by
  induction l with
  | nil => cases hb
  | cons c l ih =>
    rw [List.pairwise_cons] at h
    by_cases hc : p c = true
    · rw [List.find?_cons_of_pos hc] at ha
      obtain rfl := Option.some.inj ha
      exact (List.mem_cons.1 hb).imp_right (h.1 b)
    · rw [List.find?_cons_of_neg hc] at ha
      have hne : b ≠ c := fun heq => hc (heq ▸ hp)
      exact ih h.2 ha ((List.mem_cons.1 hb).resolve_left hne)

/-- **What is kept of a key is its latest row.** -/
theorem mem_distinctOn (hstamp : (rows.map stamp).Nodup) {a : α} :
    a ∈ distinctOn key stamp rows ↔ a ∈ rows ∧ ∀ b ∈ rows, key b = key a → stamp b ≤ stamp a := by
  have hperm := List.perm_insertionSort (Before key stamp) rows
  have hsorted : (rows.insertionSort (Before key stamp)).Pairwise (Before key stamp) :=
    (SortByKey.pairwise_le_insertionSort before_iff rows).imp fun h => (before_iff _ _).2 h
  have hlatest : ∀ {b c : α}, (rows.insertionSort (Before key stamp)).find? (fun x => key x = key b) = some c →
      b ∈ rows → stamp b ≤ stamp c := by
    intro b c hc hb
    rcases find_pairwise hsorted hc (hperm.mem_iff.2 hb) (decide_eq_true rfl) with rfl | hbefore
    · exact le_rfl
    · have hkey : key c = key b := by simpa using List.find?_some hc
      exact (hbefore.resolve_left (hkey ▸ lt_irrefl _)).2
  have hkept : ∀ {b : α}, b ∈ distinctOn key stamp rows →
      (rows.insertionSort (Before key stamp)).find? (fun x => key x = key b) = some b := by
    intro b hb
    rw [← find_firstBy]
    have hsome : ((distinctOn key stamp rows).find? fun x => key x = key b).isSome = true :=
      List.find?_isSome.2 ⟨b, hb, decide_eq_true rfl⟩
    obtain ⟨c, hc⟩ := Option.isSome_iff_exists.1 hsome
    have hkey : key c = key b := by simpa using List.find?_some hc
    rwa [List.inj_on_of_nodup_map (nodup_firstBy key _) (List.mem_of_find?_eq_some hc) hb hkey] at hc
  constructor
  · intro ha
    refine ⟨hperm.mem_iff.1 (mem_of_mem_firstBy key ha), fun b hb hkey => ?_⟩
    have hfind := hkept ha
    rw [← hkey] at hfind
    exact hlatest hfind hb
  · rintro ⟨ha, hall⟩
    have hkeys : key a ∈ (distinctOn key stamp rows).map key :=
      (mem_map_firstBy key _ _).2 (List.mem_map_of_mem (hperm.mem_iff.2 ha))
    obtain ⟨b, hb, hkey⟩ := List.mem_map.1 hkeys
    have hmem := hperm.mem_iff.1 (mem_of_mem_firstBy key hb)
    have hfind := hkept hb
    rw [hkey] at hfind
    have hstamps := le_antisymm (hlatest hfind ha) (hall b hmem hkey)
    rwa [List.inj_on_of_nodup_map hstamp ha hmem hstamps]

theorem pairwise_distinctOn (rows : List α) : (distinctOn key stamp rows).Pairwise fun a b => key a < key b := by
  have hsorted := (SortByKey.pairwise_le_insertionSort (@before_iff α κ _ key stamp) rows).sublist
    (firstBy_sublist key _)
  have hnodup : (distinctOn key stamp rows).Pairwise fun a b => key a ≠ key b :=
    List.pairwise_map.1 (nodup_firstBy key _)
  refine (hsorted.and hnodup).imp fun h => ?_
  rw [Prod.Lex.toLex_le_toLex] at h
  exact h.1.resolve_right fun heq => h.2 heq.1

/-- How many of a list have a key before one key. -/
theorem ncard_before_cons {l : List α} {c a : α} (h : ∀ b ∈ c :: l, key b < key a ↔ b = c ∨ b ∈ l ∧ key b < key a)
    (hc : c ∉ l) : {b | b ∈ c :: l ∧ key b < key a}.ncard = {b | b ∈ l ∧ key b < key a}.ncard + 1 := by
  have hset : {b | b ∈ c :: l ∧ key b < key a} = insert c {b | b ∈ l ∧ key b < key a} := by
    ext b
    rw [Set.mem_insert_iff, Set.mem_ofPred_eq, Set.mem_ofPred_eq]
    constructor
    · exact fun hb => (h b hb.1).1 hb.2
    · rintro (rfl | hb)
      · exact ⟨List.mem_cons_self, (h b List.mem_cons_self).2 (.inl rfl)⟩
      · exact ⟨List.mem_cons_of_mem _ hb.1, hb.2⟩
  have hfinite : {b | b ∈ l ∧ key b < key a}.Finite := l.finite_toSet.subset fun b hb => hb.1
  rw [hset, Set.ncard_insert_of_notMem (fun hmem => hc hmem.1) hfinite]

/-- The first of a list in the order of its keys are those with few keys before theirs. -/
theorem mem_take_iff {l : List α} (h : l.Pairwise fun a b => key a < key b) {n : ℕ} {a : α} :
    a ∈ l.take n ↔ a ∈ l ∧ {b | b ∈ l ∧ key b < key a}.ncard < n := by
  induction l generalizing n with
  | nil => simp
  | cons c l ih =>
    rw [List.pairwise_cons] at h
    have hc : c ∉ l := fun hmem => lt_irrefl _ (h.1 c hmem)
    cases n with
    | zero => simp
    | succ n =>
      rw [List.take_succ_cons, List.mem_cons, List.mem_cons, ih h.2]
      by_cases hac : a = c
      · subst hac
        have hnone : {b | b ∈ a :: l ∧ key b < key a} = ∅ := by
          refine Set.eq_empty_iff_forall_notMem.2 fun b hb => ?_
          rcases List.mem_cons.1 hb.1 with rfl | hmem
          · exact lt_irrefl _ hb.2
          · exact lt_asymm hb.2 (h.1 b hmem)
        rw [hnone, Set.ncard_empty]
        exact iff_of_true (.inl rfl) ⟨.inl rfl, Nat.succ_pos n⟩
      · rw [or_iff_right hac, or_iff_right hac]
        refine and_congr_right fun hmem => ?_
        have hcount : ∀ b ∈ c :: l, key b < key a ↔ b = c ∨ b ∈ l ∧ key b < key a := by
          intro b hb
          constructor
          · exact fun hlt => (List.mem_cons.1 hb).imp_right fun hb => ⟨hb, hlt⟩
          · rintro (rfl | hb)
            · exact h.1 a hmem
            · exact hb.2
        rw [ncard_before_cons hcount hc, Nat.succ_lt_succ_iff]

/-- What is kept of a list has no more keys than the list. -/
theorem map_filterMap_sublist {α β γ : Type*} {f : α → Option β} {g : β → γ} {k : α → γ}
    (h : ∀ a b, f a = some b → g b = k a) (l : List α) : ((l.filterMap f).map g).Sublist (l.map k) := by
  induction l with
  | nil => exact List.Sublist.slnil
  | cons a l ih =>
    rw [List.filterMap_cons, List.map_cons]
    cases hf : f a with
    | none => exact ih.cons _
    | some b => exact h a b hf ▸ ih.cons_cons _

/-- Two rows of a list in order stand one way or the other. -/
theorem pairwise_or {α : Type*} {r : α → α → Prop} {l : List α} (h : l.Pairwise r) {a b : α} (ha : a ∈ l) (hb : b ∈ l)
    (hne : a ≠ b) : r a b ∨ r b a := by
  induction l with
  | nil => cases ha
  | cons c l ih =>
    rw [List.pairwise_cons] at h
    rcases List.mem_cons.1 ha with rfl | hal
    · exact .inl (h.1 b ((List.mem_cons.1 hb).resolve_left (Ne.symm hne)))
    · rcases List.mem_cons.1 hb with rfl | hbl
      · exact .inr (h.1 a hal)
      · exact ih h.2 hal hbl

/-- Lists of one image are one list where the map tells their rows apart. -/
theorem eq_of_map_eq {α β : Type*} {f : α → β} {l l' : List α} (hinj : ∀ a ∈ l, ∀ b ∈ l', f a = f b → a = b)
    (h : l.map f = l'.map f) : l = l' := by
  induction l generalizing l' with
  | nil => exact (List.map_eq_nil_iff.1 h.symm).symm
  | cons a l ih =>
    cases l' with
    | nil => cases h
    | cons b l' =>
      obtain ⟨hhead, htail⟩ := List.cons.inj h
      rw [hinj a List.mem_cons_self b List.mem_cons_self hhead,
        ih (fun c hc d hd => hinj c (List.mem_cons_of_mem _ hc) d (List.mem_cons_of_mem _ hd)) htail]

end DistinctOn
