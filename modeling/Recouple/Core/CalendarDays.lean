import Recouple.Core.MoneyRoundTrips
import Recouple.Core.Resolution

/-!
# Calendar days: what `isoDay` reads, `packages/core-domain/src/identity.ts` (251-273)

A day of the calendar is a year, a month and a day of that month; `next` is the day after it. `isoDay` gives a day its
number, and the numbers count: the day after has the number after (`number_next`), so two days are as far apart as
their numbers (`apart_iff`).

* `isoDay_iff`: what is read is the text of a calendar day, of the years from 100 on.
-/

namespace Recouple
open Js

/-! ## The calendar -/

@[ext] structure CalendarDay where
  year : Nat
  month : Nat
  day : Nat
  month_pos : 1 ≤ month
  month_le : month ≤ 12
  day_pos : 1 ≤ day
  day_le : day ≤ daysInMonth year month

theorem daysInMonth_pos (year month : Nat) : 1 ≤ daysInMonth year month := by
  unfold daysInMonth
  split_ifs <;> omega

theorem daysInMonth_le (year month : Nat) : daysInMonth year month ≤ 31 := by
  unfold daysInMonth
  split_ifs <;> omega

namespace CalendarDay

/-- The first of January of year 0. -/
def first : CalendarDay := ⟨0, 1, 1, by decide, by decide, by decide, by decide⟩

/-- The day after. -/
def next (d : CalendarDay) : CalendarDay :=
  if hday : d.day < daysInMonth d.year d.month then
    ⟨d.year, d.month, d.day + 1, d.month_pos, d.month_le, by omega, hday⟩
  else if hmonth : d.month < 12 then
    ⟨d.year, d.month + 1, 1, by omega, hmonth, by omega, daysInMonth_pos _ _⟩
  else ⟨d.year + 1, 1, 1, by omega, by omega, by omega, daysInMonth_pos _ _⟩

def number (d : CalendarDay) : Nat := dayNumber d.year d.month d.day

/-- One is at most so many days after the other. -/
def Apart (days : Nat) (d e : CalendarDay) : Prop := ∃ k ≤ days, next^[k] d = e ∨ next^[k] e = d

/-- The months before one month, and that month. -/
theorem sum_months (year : Nat) {month : Nat} (h : 1 ≤ month) :
    ((List.range' 1 month).map (daysInMonth year)).sum =
      ((List.range' 1 (month - 1)).map (daysInMonth year)).sum + daysInMonth year month := by
  obtain ⟨m, rfl⟩ : ∃ m, month = m + 1 := ⟨month - 1, by omega⟩
  rw [Nat.add_sub_cancel, List.range'_1_concat, List.map_append, List.sum_append, List.map_singleton,
    List.sum_singleton, Nat.add_comm 1 m]

theorem sum_year (year : Nat) :
    ((List.range' 1 11).map (daysInMonth year)).sum = if isLeap year then 335 else 334 := by
  cases h : isLeap year <;> simp [List.range', daysInMonth, h]

/-- One more multiple is counted past a multiple. -/
theorem div_succ {m : Nat} (hm : 0 < m) (n : Nat) : (n + 1 + (m - 1)) / m = (n + (m - 1)) / m + if n % m = 0 then 1 else 0 := by
  rw [Nat.add_right_comm, Nat.succ_div]
  congr 1
  have hdvd : m ∣ n + (m - 1) + 1 ↔ n % m = 0 := by
    rw [Nat.add_assoc, Nat.sub_add_cancel hm, Nat.dvd_add_left (Nat.dvd_refl m), Nat.dvd_iff_mod_eq_zero]
  simp only [hdvd]

/-- A year's days before its own months. -/
theorem dayNumber_newYear (year : Nat) :
    dayNumber (year + 1) 1 1 = dayNumber year 1 1 + if isLeap year then 366 else 365 := by
  have h4 := div_succ (m := 4) (by omega) year
  have h100 := div_succ (m := 100) (by omega) year
  have h400 := div_succ (m := 400) (by omega) year
  have hle : (year + 99) / 100 ≤ (year + 3) / 4 := by omega
  have hleap : isLeap year = true ↔ year % 4 = 0 ∧ (year % 100 ≠ 0 ∨ year % 400 = 0) := by simp [isLeap]
  have h100' : year % 100 = 0 → year % 4 = 0 := by omega
  have h400' : year % 400 = 0 → year % 100 = 0 := by omega
  simp only [dayNumber, Nat.sub_self, List.range'_zero, List.map_nil, List.sum_nil, hleap]
  simp only [show 4 - 1 = 3 from rfl, show 100 - 1 = 99 from rfl, show 400 - 1 = 399 from rfl] at h4 h100 h400
  rw [h4, h100, h400]
  generalize (year + 3) / 4 = a at *
  generalize (year + 99) / 100 = b at *
  generalize (year + 399) / 400 = c at *
  clear h4 h100 h400
  split_ifs <;> omega

/-- **The day after has the number after.** -/
theorem number_next (d : CalendarDay) : d.next.number = d.number + 1 := by
  unfold next number
  split
  case isTrue => rfl
  case isFalse hday =>
    have hlast : d.day = daysInMonth d.year d.month := Nat.le_antisymm d.day_le (Nat.not_lt.1 hday)
    split
    case isTrue =>
      have hmonths := sum_months d.year d.month_pos
      simp only [dayNumber, Nat.add_sub_cancel]
      omega
    case isFalse hmonth =>
      have htwelve : d.month = 12 := Nat.le_antisymm d.month_le (Nat.not_lt.1 hmonth)
      have hday31 : d.day = 31 := by rw [hlast, htwelve]; rfl
      have hmonths := sum_year d.year
      have hend : dayNumber d.year 12 31 = dayNumber d.year 1 1 + (if isLeap d.year then 335 else 334) + 30 := by
        simp only [dayNumber, Nat.sub_self, List.range'_zero, List.map_nil, List.sum_nil, show 12 - 1 = 11 from rfl,
          hmonths]
        omega
      rw [htwelve, hday31, hend, dayNumber_newYear]
      split
      case isTrue => rfl
      case isFalse => rfl

theorem number_iterate (d : CalendarDay) (k : Nat) : (next^[k] d).number = d.number + k := by
  induction k with
  | zero => rfl
  | succ k ih => rw [Function.iterate_succ_apply', number_next, ih, Nat.add_assoc]

/-! ## Every day comes after the first -/

/-- The days that come after the first. -/
def Reached (d : CalendarDay) : Prop := ∃ k, next^[k] first = d

theorem Reached.next {d : CalendarDay} (h : Reached d) : Reached d.next := by
  obtain ⟨k, rfl⟩ := h
  exact ⟨k + 1, Function.iterate_succ_apply' _ _ _⟩

/-- From the first of a month on, its every day. -/
theorem reached_day {d : CalendarDay} (h : ∀ e : CalendarDay, e.year = d.year → e.month = d.month → e.day = 1 →
    Reached e) : Reached d := by
  obtain ⟨year, month, day, hmonth, hmonth', hday, hday'⟩ := d
  induction day with
  | zero => exact absurd hday (by omega)
  | succ day ih =>
    rcases Nat.eq_zero_or_pos day with rfl | hpos
    · exact h _ rfl rfl rfl
    · have hbefore := (ih hpos (by omega) h).next
      unfold CalendarDay.next at hbefore
      rwa [dif_pos (show day < daysInMonth year month from hday')] at hbefore

theorem reached_month {d : CalendarDay} (h : ∀ e : CalendarDay, e.year = d.year → e.month = 1 → e.day = 1 →
    Reached e) : Reached d := by
  obtain ⟨year, month, day, hmonth, hmonth', hday, hday'⟩ := d
  induction month generalizing day with
  | zero => exact absurd hmonth (by omega)
  | succ month ih =>
    refine reached_day ?_
    rintro ⟨year', month', day', hm, hm', hd, hd'⟩ hyear hsame hone
    dsimp only at hyear hsame hone
    subst hyear hsame hone
    rcases Nat.eq_zero_or_pos month with rfl | hpos
    · exact h _ rfl rfl rfl
    · have hbefore := (ih (daysInMonth year' month) hpos (by omega) (daysInMonth_pos _ _) le_rfl h).next
      unfold CalendarDay.next at hbefore
      rwa [dif_neg (Nat.lt_irrefl _), dif_pos (show month < 12 by omega)] at hbefore

theorem reached (d : CalendarDay) : Reached d := by
  refine reached_month ?_
  rintro ⟨year, month, day, hm, hm', hd, hd'⟩ - hmonth hday
  dsimp only at hmonth hday
  subst hmonth hday
  clear d
  induction year with
  | zero => exact ⟨0, rfl⟩
  | succ year ih =>
    have hlast : Reached ⟨year, 12, 31, by omega, by omega, by omega, le_rfl⟩ := by
      refine reached_month ?_
      rintro ⟨year', month', day', hm', hm'', hd', hd''⟩ hyear hmonth hday
      dsimp only at hyear hmonth hday
      subst hyear hmonth hday
      exact ih (daysInMonth_pos _ _)
    have hnext := hlast.next
    unfold CalendarDay.next at hnext
    rwa [dif_neg (show ¬ 31 < daysInMonth year 12 from Nat.lt_irrefl _), dif_neg (Nat.lt_irrefl 12)] at hnext

/-- Two days are as far apart as their numbers. -/
theorem apart_iff {days : Nat} {d e : CalendarDay} :
    Apart days d e ↔ ((d.number : Int) - e.number).natAbs ≤ days := by
  constructor
  · rintro ⟨k, hk, rfl | rfl⟩
    · rw [number_iterate]
      omega
    · rw [number_iterate]
      omega
  · intro h
    obtain ⟨m, rfl⟩ := reached d
    obtain ⟨n, rfl⟩ := reached e
    rw [number_iterate, number_iterate] at h
    rcases Nat.le_total m n with hmn | hnm
    · refine ⟨n - m, by omega, .inl ?_⟩
      rw [← Function.iterate_add_apply, Nat.sub_add_cancel hmn]
    · refine ⟨m - n, by omega, .inr ?_⟩
      rw [← Function.iterate_add_apply, Nat.sub_add_cancel hnm]

/-! ## Its text -/

/-- `YYYY-MM-DD`, of a year of four digits. -/
def iso (d : CalendarDay) : Text := padded 4 d.year ++ '-' :: (padded 2 d.month ++ '-' :: padded 2 d.day)

end CalendarDay

/-- As many digits of one number are one text. -/
theorem digitsOf_inj {a b : Text} (hlength : a.length = b.length) (ha : ∀ c ∈ a, c.isDigit = true)
    (hb : ∀ c ∈ b, c.isDigit = true) (h : digitsOf a = digitsOf b) : a = b := by
  induction a generalizing b with
  | nil => exact (List.length_eq_zero_iff.1 hlength.symm).symm
  | cons c a ih =>
    cases b with
    | nil => cases hlength
    | cons d b =>
      rw [List.forall_mem_cons] at ha hb
      have hlength : a.length = b.length := Nat.succ.inj hlength
      obtain ⟨hc, hc', -⟩ := digitsOf_digit ha.1
      obtain ⟨hd, hd', -⟩ := digitsOf_digit hb.1
      rw [digitsOf_cons c a, digitsOf_cons d b, hlength] at h
      have ha' : digitsOf a < 10 ^ b.length := hlength ▸ digitsOf_lt ha.2
      have hb' := digitsOf_lt hb.2
      have hrest : digitsOf a = digitsOf b := by
        have hmod := congrArg (· % 10 ^ b.length) h
        simpa [Nat.mul_add_mod, Nat.mod_eq_of_lt ha', Nat.mod_eq_of_lt hb'] using hmod
      have hfirst : digitsOf [c] = digitsOf [d] := by
        rw [hrest] at h
        exact Nat.eq_of_mul_eq_mul_left (Nat.pow_pos (by omega)) (Nat.add_right_cancel h)
      rw [ih hlength ha.2 hb.2 hrest, Char.toNat_inj.1 (show c.toNat = d.toNat by omega)]

/-- Digits are the padded text of their number. -/
theorem padded_digitsOf {text : Text} (hne : text ≠ []) (h : ∀ c ∈ text, c.isDigit = true) :
    padded text.length (digitsOf text) = text := by
  have hlength : (padded text.length (digitsOf text)).length = text.length :=
    length_padded (List.length_pos_iff.2 hne) (digitsOf_lt h)
  refine digitsOf_inj hlength (fun c => isDigit_of_mem_padded) h (digitsOf_padded _ _)

theorem digits_iff {n : Nat} (hn : 0 < n) {text rest : Text} {value : Nat} :
    digits n text = some (value, rest) ↔ value < 10 ^ n ∧ text = padded n value ++ rest := by
  unfold digits
  dsimp only
  constructor
  · intro h
    split at h
    case isFalse => cases h
    case isTrue hfront =>
      obtain ⟨hlength, hdigits⟩ := hfront
      rw [List.all_eq_true] at hdigits
      have hne : text.take n ≠ [] := List.length_pos_iff.1 (by omega)
      have hvalue := digitsOf_lt hdigits
      have hpadded := padded_digitsOf hne hdigits
      rw [hlength] at hvalue hpadded
      obtain ⟨rfl, rfl⟩ := Prod.mk.inj (Option.some.inj h)
      exact ⟨hvalue, by rw [hpadded, List.take_append_drop]⟩
  · rintro ⟨hvalue, rfl⟩
    have hlength := length_padded hn hvalue
    rw [List.take_left' hlength, List.drop_left' hlength, if_pos ⟨hlength, List.all_eq_true.2 fun c =>
      isDigit_of_mem_padded⟩, show Nat.ofDigitChars 10 (padded n value) 0 = value from digitsOf_padded n value]

/-- `-(\d{2})` -/
def dashed (text : Text) : Option (Nat × Text) := if text.head? = some '-' then digits 2 text.tail else none

theorem dateParts_eq (text : Text) : dateParts text = (digits 4 text).bind fun y => (dashed y.2).bind fun m =>
    (dashed m.2).bind fun d => if d.2 = [] then some (y.1, m.1, d.1) else none := by
  unfold dateParts dashed
  refine Option.bind_congr fun y _ => ?_
  dsimp only
  split_ifs with hyear
  · refine Option.bind_congr fun m _ => ?_
    split_ifs <;> rfl
  · rfl

theorem dashed_iff {text rest : Text} {value : Nat} :
    dashed text = some (value, rest) ↔ value < 10 ^ 2 ∧ text = '-' :: (padded 2 value ++ rest) := by
  unfold dashed
  rcases text with - | ⟨c, text⟩
  · simp
  · by_cases hc : c = '-'
    · subst hc
      rw [List.head?_cons, if_pos rfl, List.tail_cons, digits_iff (by omega), List.cons.injEq, and_iff_right rfl]
    · simp [hc]

theorem dateParts_iff {text : Text} {year month day : Nat} : dateParts text = some (year, month, day) ↔
    (year < 10 ^ 4 ∧ month < 10 ^ 2 ∧ day < 10 ^ 2) ∧
      text = padded 4 year ++ '-' :: (padded 2 month ++ '-' :: padded 2 day) := by
  rw [dateParts_eq]
  simp only [Option.bind_eq_some_iff, Prod.exists, digits_iff (n := 4) (by omega), dashed_iff]
  constructor
  · rintro ⟨y, rest, ⟨hy, rfl⟩, m, rest', ⟨hm, rfl⟩, d, rest'', ⟨hd, rfl⟩, h⟩
    split at h
    case isFalse => cases h
    case isTrue hend =>
      subst hend
      obtain ⟨rfl, rfl, rfl⟩ : y = year ∧ m = month ∧ d = day := by simpa using h
      exact ⟨⟨hy, hm, hd⟩, by rw [List.append_nil]⟩
  · rintro ⟨⟨hy, hm, hd⟩, rfl⟩
    exact ⟨year, _, ⟨hy, rfl⟩, month, _, ⟨hm, rfl⟩, day, [], ⟨hd, by rw [List.append_nil]⟩, if_pos rfl⟩

/-- **What is read is the text of a calendar day**, of a year from 100 on and of four digits. -/
theorem isoDay_iff {text : Text} {n : Nat} : isoDay text = some n ↔
    ∃ d : CalendarDay, (100 ≤ d.year ∧ d.year ≤ 9999) ∧ text = d.iso ∧ d.number = n := by
  unfold isoDay
  simp only [Option.bind_eq_some_iff, Prod.exists, dateParts_iff]
  constructor
  · rintro ⟨year, month, day, ⟨⟨hy, -, -⟩, rfl⟩, h⟩
    split at h
    case isFalse => cases h
    case isTrue hreal =>
      obtain ⟨hyear, hmonth, hmonth', hday, hday'⟩ := hreal
      exact ⟨⟨year, month, day, hmonth, hmonth', hday, hday'⟩, ⟨hyear, Nat.le_of_lt_succ hy⟩, rfl, Option.some.inj h⟩
  · rintro ⟨d, ⟨hyear, hyear'⟩, rfl, rfl⟩
    have hmonth := d.month_le
    have hday := Nat.le_trans d.day_le (daysInMonth_le _ _)
    exact ⟨d.year, d.month, d.day, ⟨⟨by omega, by omega, by omega⟩, rfl⟩,
      if_pos ⟨hyear, d.month_pos, d.month_le, d.day_pos, d.day_le⟩⟩

end Recouple
