import Recouple.Lib.Number

/-!
# Thousands separators

* `localeDecimal_split`: `toLocaleString` writes the digits of a number in groups of three, the first of one to three.
-/

namespace Js

theorem intercalate_concat {α : Type*} {sep : List α} {gs : List (List α)} (h : gs ≠ []) (g : List α) :
    sep.intercalate (gs ++ [g]) = sep.intercalate gs ++ sep ++ g := by
  induction gs with
  | nil => exact absurd rfl h
  | cons first rest ih =>
    cases rest with
    | nil => simp
    | cons second rest =>
      rw [List.cons_append, List.cons_append, List.intercalate_cons_cons, List.intercalate_cons_cons,
        ← List.cons_append, ih (by simp)]
      simp

/-- Groups of three, the first of one to three. -/
def InThrees (gs : List Text) : Prop :=
  ∃ first rest, gs = first :: rest ∧ 1 ≤ first.length ∧ first.length ≤ 3 ∧ ∀ g ∈ rest, g.length = 3

theorem groups_split (r : Text) (hr : r ≠ []) :
    ∃ gs, InThrees gs ∧ (groups r).reverse = [','].intercalate gs ∧ gs.flatten = r.reverse := by
  induction r using groups.induct with
  | case1 a b c d rest ih =>
    obtain ⟨gs, ⟨first, more, rfl, hone, hthree, hmore⟩, hgroups, hflat⟩ := ih (by simp)
    refine ⟨first :: more ++ [[c, b, a]], ⟨first, more ++ [[c, b, a]], by simp, hone, hthree, fun g hg => ?_⟩, ?_, ?_⟩
    · rcases List.mem_append.1 hg with hg | hg
      · exact hmore g hg
      · rw [List.mem_singleton.1 hg]
        rfl
    · rw [intercalate_concat (by simp), ← hgroups, groups]
      simp
    · rw [List.flatten_append, hflat]
      simp
  | case2 r hshort =>
    have hlength : r.length ≤ 3 := by
      match r with
      | [] => simp
      | [_] => simp
      | [_, _] => simp
      | [_, _, _] => simp
      | a :: b :: c :: d :: rest => exact absurd rfl (hshort a b c d rest)
    refine ⟨[r.reverse], ⟨r.reverse, [], rfl, ?_, by simpa using hlength, by simp⟩, ?_, by simp⟩
    · rw [List.length_reverse]
      exact List.length_pos_iff.2 hr
    · rw [groups, List.intercalate_singleton]
      exact hshort

/-- The groups are the digits, with commas between. -/
theorem localeDecimal_split (n : Nat) :
    ∃ gs, InThrees gs ∧ localeDecimal n = [','].intercalate gs ∧ gs.flatten = decimal n := by
  obtain ⟨gs, hthrees, hgroups, hflat⟩ := groups_split (decimal n).reverse (by simpa using decimal_ne_nil n)
  exact ⟨gs, hthrees, hgroups, by rw [hflat, List.reverse_reverse]⟩

theorem splitOn_localeDecimal {n : Nat} {gs : List Text} (hthrees : InThrees gs)
    (hgroups : localeDecimal n = [','].intercalate gs) (hflat : gs.flatten = decimal n) :
    (localeDecimal n).splitOn ',' = gs := by
  obtain ⟨first, rest, rfl, -⟩ := hthrees
  rw [hgroups]
  refine List.splitOn_intercalate ',' (fun g hg hcomma => ?_) (by simp)
  have hdigit := isDigit_of_mem_decimal (hflat ▸ List.mem_flatten_of_mem hg hcomma)
  exact absurd hdigit (by decide)

/-- Without its commas it is the digits. -/
theorem filter_localeDecimal (n : Nat) : (localeDecimal n).filter (· ≠ ',') = decimal n := by
  obtain ⟨gs, -, hgroups, hflat⟩ := localeDecimal_split n
  have hplain : ∀ g ∈ gs, ∀ c ∈ g, c ≠ ',' := by
    rintro g hg c hc rfl
    exact absurd (isDigit_of_mem_decimal (hflat ▸ List.mem_flatten_of_mem hg hc)) (by decide)
  rw [hgroups, ← hflat]
  clear hgroups hflat
  induction gs with
  | nil => rfl
  | cons g gs ih =>
    rw [List.forall_mem_cons] at hplain
    have hself : g.filter (· ≠ ',') = g := List.filter_eq_self.2 fun c hc => decide_eq_true (hplain.1 c hc)
    cases gs with
    | nil => simpa using hself
    | cons g' gs =>
      rw [List.intercalate_cons_cons, List.filter_append, List.filter_append, ih hplain.2, hself]
      simp

theorem mem_localeDecimal {n : Nat} {c : Char} (h : c ∈ localeDecimal n) : c.isDigit = true ∨ c = ',' := by
  by_cases hc : c = ','
  · exact .inr hc
  · refine .inl (@isDigit_of_mem_decimal n c ?_)
    rw [← filter_localeDecimal n]
    exact List.mem_filter.2 ⟨h, decide_eq_true hc⟩

end Js
