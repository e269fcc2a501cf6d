import Recouple.Lib.KeyedFold

/-!
# Reads in pages and in chunks

A list that a server holds is read a page at a time: `readPages` asks for the page after what it has read, and stops at
the first page shorter than a full one, or gives up after so many pages. `chunks` cuts what is asked for.

* `readPages_ok`: what a read returns is full pages and then a short one, each answered where the last ended.
* `readPages_slices`: of pages that are slices of one list, each as long as was asked for while there is more, that is
  the list.
* `flatten_chunks`, `perm_filter_chunks`: nothing is lost or repeated between chunks.
-/

namespace Recouple

universe u

variable {ε : Type*} {α β : Type u}

/-- The pages of a list, `left` at most, after the rows read so far. -/
def readPages (size : Nat) (page : Nat → Except ε (List α)) (unended : ε) : Nat → List α → Except ε (List α)
  | 0, _ => .error unended
  | left + 1, rows => do
    let found ← page rows.length
    if found.length < size then return rows ++ found else readPages size page unended left (rows ++ found)

/-- `n` at a time. -/
def chunks (n : Nat) (l : List α) : List (List α) :=
  (List.range ((l.length + n - 1) / n)).map fun i => (l.drop (i * n)).take n

/-! ## Pages -/

/-- Full pages and then a short one, each answered where the one before it ended. -/
inductive InPages (size : Nat) (page : Nat → Except ε (List α)) : Nat → List α → List α → Prop
  | last {left : Nat} {rows found : List α} (h : page rows.length = .ok found) (hshort : found.length < size) :
    InPages size page (left + 1) rows (rows ++ found)
  | more {left : Nat} {rows found all : List α} (h : page rows.length = .ok found) (hfull : size ≤ found.length)
    (rest : InPages size page left (rows ++ found) all) : InPages size page (left + 1) rows all

variable {size : Nat} {page : Nat → Except ε (List α)} {unended : ε}

theorem readPages_ok {left : Nat} {rows all : List α} :
    readPages size page unended left rows = .ok all ↔ InPages size page left rows all := by
  constructor
  · intro h
    induction left generalizing rows with
    | zero => cases h
    | succ left ih =>
      obtain ⟨found, hpage, h⟩ := KeyedFold.bind_ok.1 h
      split at h
      · rename_i hshort
        cases h
        exact .last hpage hshort
      · rename_i hfull
        exact .more hpage (not_lt.1 hfull) (ih h)
  · intro h
    induction h with
    | last hpage hshort => exact KeyedFold.bind_ok.2 ⟨_, hpage, if_pos hshort⟩
    | more hpage hfull rest ih => exact KeyedFold.bind_ok.2 ⟨_, hpage, (if_neg (not_lt.2 hfull)).trans ih⟩

/-- Of slices of one list, each as long as was asked for while there is more, a read returns the list. -/
theorem InPages.slices {L : List α} (hslice : ∀ n found, page n = .ok found → found = (L.drop n).take size)
    {left : Nat} {rows all : List α} (h : InPages size page left rows all) (hrows : rows ++ L.drop rows.length = L) :
    all = L := by
  induction h with
  | @last left rows found hpage hshort =>
    have hfound := hslice _ _ hpage
    rw [hfound, List.length_take, min_lt_iff, or_iff_right (lt_irrefl _)] at hshort
    rw [hfound, List.take_of_length_le hshort.le, hrows]
  | @more left rows found all hpage hfull rest ih =>
    have hfound := hslice _ _ hpage
    have hlength : found.length = size := by
      refine le_antisymm ?_ hfull
      rw [hfound]
      exact List.length_take_le _ _
    refine ih ?_
    rw [List.length_append, hlength, ← List.drop_drop, List.append_assoc]
    nth_rewrite 1 [hfound]
    rw [List.take_append_drop, hrows]

/-! ## Chunks -/

theorem flatten_take_chunks (n : Nat) (l : List α) (k : Nat) :
    ((List.range k).map fun i => (l.drop (i * n)).take n).flatten = l.take (k * n) := by
  induction k with
  | zero => rw [List.range_zero, List.map_nil, List.flatten_nil, Nat.zero_mul, List.take_zero]
  | succ k ih =>
    rw [List.range_succ, List.map_append, List.flatten_append, ih, List.map_singleton, List.flatten_singleton,
      Nat.succ_mul, List.take_add]

theorem flatten_chunks {n : Nat} (hn : 0 < n) (l : List α) : (chunks n l).flatten = l := by
  unfold chunks
  rw [flatten_take_chunks]
  refine List.take_of_length_le ?_
  have h := Nat.lt_div_mul_add hn (a := l.length + n - 1)
  omega

/-- Rows picked out by either of two conditions that no row meets both of. -/
theorem perm_filter_or {p q : α → Bool} {l : List α} (h : ∀ a ∈ l, p a = true → q a = false) :
    (l.filter p ++ l.filter q).Perm (l.filter fun a => p a || q a) := by
  induction l with
  | nil => exact List.Perm.refl _
  | cons a l ih =>
    rw [List.forall_mem_cons] at h
    have hrest := ih h.2
    cases hp : p a with
    | true =>
      have hq := h.1 hp
      rw [List.filter_cons_of_pos hp, List.filter_cons_of_neg (Bool.eq_false_iff.1 hq),
        List.filter_cons_of_pos (by rw [hp, Bool.true_or])]
      exact hrest.cons a
    | false =>
      rw [List.filter_cons_of_neg (Bool.eq_false_iff.1 hp)]
      cases hq : q a with
      | true =>
        rw [List.filter_cons_of_pos hq, List.filter_cons_of_pos (by rw [hq, Bool.or_true])]
        exact List.perm_middle.trans (hrest.cons a)
      | false =>
        rw [List.filter_cons_of_neg (Bool.eq_false_iff.1 hq),
          List.filter_cons_of_neg (by rw [hp, hq]; exact Bool.false_ne_true)]
        exact hrest

/-- The rows of each chunk of keys, one chunk after the other, are the rows of the keys. -/
theorem perm_filter_chunks {κ : Type*} [BEq κ] [LawfulBEq κ] (key : α → Option κ) (l : List α) {cs : List (List κ)}
    (h : cs.flatten.Nodup) :
    (cs.flatMap fun c => l.filter fun a => (key a).any (· ∈ c)).Perm
      (l.filter fun a => (key a).any (· ∈ cs.flatten)) := by
  induction cs with
  | nil =>
    have hnone : l.filter (fun a => (key a).any (· ∈ ([] : List (List κ)).flatten)) = [] := by
      refine List.filter_eq_nil_iff.2 fun a _ hany => ?_
      cases hk : key a with
      | none => rw [hk] at hany; cases hany
      | some k => simp [hk] at hany
    rw [hnone]
    exact List.Perm.refl _
  | cons c cs ih =>
    rw [List.flatten_cons, List.nodup_append'] at h
    obtain ⟨-, hrest, hapart⟩ := h
    have hor : ∀ a, (key a).any (· ∈ (c :: cs).flatten) = ((key a).any (· ∈ c) || (key a).any (· ∈ cs.flatten)) := by
      intro a
      cases key a with
      | none => rfl
      | some k => simp only [List.flatten_cons, Option.any_some, List.mem_append, Bool.decide_or]
    have hdisjoint : ∀ a ∈ l, (key a).any (· ∈ c) = true → (key a).any (· ∈ cs.flatten) = false := by
      intro a _ hc
      cases hk : key a with
      | none => rfl
      | some k =>
        rw [hk, Option.any_some, decide_eq_true_eq] at hc
        rw [Option.any_some, decide_eq_false_iff_not]
        exact fun hmem => hapart hc hmem
    rw [List.flatMap_cons, List.filter_congr fun a _ => hor a]
    exact ((ih hrest).append_left _).trans (perm_filter_or hdisjoint)

end Recouple
