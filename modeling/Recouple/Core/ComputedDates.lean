import Recouple.Core.Dates

/-!
# Computed dates are days of the calendar

`toISOString` finds the day of a number again (`yearOf_number`, `monthAndDay_number`), so `isoOf` writes it as
`YYYY-MM-DD` up to the end of 9999 and with a sign past it (`isoOf_number`, `isoOf_late`). `computed_dates` says what
that makes of the serials, of the windows and of the printed dates.
-/

namespace Recouple.Dates
open Js

/-! ## The day of a number -/

theorem newYear_le_succ (year : Nat) : newYear year + 365 ≤ newYear (year + 1) := by
  have h := CalendarDay.dayNumber_newYear year
  unfold newYear
  rw [h]
  split <;> omega

theorem newYear_mono {a b : Nat} (h : a ≤ b) : newYear a ≤ newYear b := by
  induction h with
  | refl => exact Nat.le_refl _
  | step _ ih => exact ih.trans (by have := newYear_le_succ; exact (Nat.le_add_right _ _).trans (this _))

theorem newYear_eq (year : Nat) :
    newYear year = 365 * year + (year + 3) / 4 - (year + 99) / 100 + (year + 399) / 400 + 1 := by
  simp [newYear, dayNumber]

/-- The year found is the one the number is in. -/
theorem yearOf_spec {n : Nat} (h : 1 ≤ n) : newYear (yearOf n) ≤ n ∧ n < newYear (yearOf n + 1) := by
  have hover : n < newYear (n * 400 / 146097 + 1 + 1) := by
    rw [newYear_eq]
    omega
  have hunder : newYear (n * 400 / 146097 + 1 - 2) ≤ n := by
    rw [newYear_eq]
    omega
  unfold yearOf
  dsimp only
  split
  · rename_i hguess
    exact ⟨hguess, hover⟩
  · rename_i hguess
    split
    · rename_i hbefore
      refine ⟨hbefore, ?_⟩
      rw [Nat.add_sub_cancel] at hbefore ⊢
      exact Nat.lt_of_not_le hguess
    · rename_i hbefore
      refine ⟨hunder, ?_⟩
      have hpos : n * 400 / 146097 ≠ 0 := by
        intro hzero
        rw [hzero] at hbefore
        exact hbefore h
      rw [show n * 400 / 146097 + 1 - 2 + 1 = n * 400 / 146097 + 1 - 1 by omega]
      exact Nat.lt_of_not_le hbefore

theorem yearOf_eq {n year : Nat} (h : 1 ≤ n) (hle : newYear year ≤ n) (hlt : n < newYear (year + 1)) :
    yearOf n = year := by
  obtain ⟨hle', hlt'⟩ := yearOf_spec h
  rcases Nat.lt_trichotomy (yearOf n) year with hy | hy | hy
  · exact absurd (Nat.lt_of_lt_of_le hlt' (newYear_mono hy)) (Nat.not_lt.2 hle)
  · exact hy
  · exact absurd (Nat.lt_of_lt_of_le hlt (newYear_mono hy)) (Nat.not_lt.2 hle')

/-- The days of the months before, and a day of the month, lead to that day. -/
theorem monthAndDay_months (year : Nat) {day : Nat} (hday : 1 ≤ day) : ∀ {j s k : Nat}, j < k →
    day ≤ daysInMonth year (s + j) →
    monthAndDay year (List.range' s k) (((List.range' s j).map (daysInMonth year)).sum + (day - 1)) = (s + j, day)
  | 0, s, k + 1, _, hle => by
    rw [List.range'_succ, monthAndDay, List.range'_zero, List.map_nil, List.sum_nil, Nat.zero_add,
      if_pos (by rw [Nat.add_zero] at hle; omega), Nat.sub_add_cancel hday, Nat.add_zero]
  | j + 1, s, k + 1, hlt, hle => by
    have ih := monthAndDay_months year hday (j := j) (s := s + 1) (k := k) (by omega)
      (by rwa [Nat.add_assoc, Nat.add_comm 1 j])
    rw [List.range'_succ, monthAndDay, List.range'_succ, List.map_cons, List.sum_cons, if_neg (by omega),
      show daysInMonth year s + ((List.range' (s + 1) j).map (daysInMonth year)).sum + (day - 1) - daysInMonth year s =
        ((List.range' (s + 1) j).map (daysInMonth year)).sum + (day - 1) by omega, ih, Nat.add_assoc, Nat.add_comm 1 j]

variable (d : CalendarDay)

/-- The number of a day: its year's first, and the days of the year before it. -/
theorem number_eq : d.number =
    newYear d.year + (((List.range' 1 (d.month - 1)).map (daysInMonth d.year)).sum + (d.day - 1)) := by
  have hday := d.day_pos
  rw [newYear_eq, CalendarDay.number, dayNumber]
  omega

theorem number_lt_newYear : d.number < newYear (d.year + 1) := by
  have hsplit : ((List.range' 1 12).map (daysInMonth d.year)).sum =
      ((List.range' 1 d.month).map (daysInMonth d.year)).sum +
        ((List.range' (1 + 1 * d.month) (12 - d.month)).map (daysInMonth d.year)).sum := by
    rw [← List.sum_append, ← List.map_append, List.range'_append, Nat.add_sub_cancel' d.month_le]
  have hmonths := CalendarDay.sum_months d.year d.month_pos
  have hyear := @CalendarDay.sum_months d.year 12 (by omega)
  have heleven := CalendarDay.sum_year d.year
  have hdecember : daysInMonth d.year 12 = 31 := rfl
  have hnext : newYear (d.year + 1) = newYear d.year + if isLeap d.year then 366 else 365 :=
    CalendarDay.dayNumber_newYear d.year
  have hday := d.day_le
  have hday' := d.day_pos
  rw [number_eq, hnext]
  rw [show 12 - 1 = 11 from rfl, heleven, hdecember] at hyear
  split
  · rename_i hleap
    rw [if_pos hleap] at hyear
    omega
  · rename_i hleap
    rw [if_neg hleap] at hyear
    omega

theorem number_pos : 1 ≤ d.number := by
  rw [number_eq, newYear_eq]
  omega

theorem yearOf_number : yearOf d.number = d.year :=
  yearOf_eq (number_pos d) (by rw [number_eq]; omega) (number_lt_newYear d)

theorem monthAndDay_number :
    monthAndDay d.year (List.range' 1 12) (d.number - newYear d.year) = (d.month, d.day) := by
  have hmonth := d.month_pos
  have hmonth' := d.month_le
  have h := monthAndDay_months d.year d.day_pos (j := d.month - 1) (s := 1) (k := 12) (by omega)
    (by rw [Nat.add_sub_cancel' hmonth]; exact d.day_le)
  rw [number_eq, Nat.add_sub_cancel_left, h, Nat.add_sub_cancel' hmonth]

theorem length_iso (h : d.year ≤ 9999) : d.iso.length = 10 := by
  have hmonth := d.month_le
  have hday := Nat.le_trans d.day_le (daysInMonth_le _ _)
  rw [CalendarDay.iso, List.length_append, List.length_cons, List.length_append, List.length_cons,
    length_padded (by omega) (by omega), length_padded (by omega) (by omega), length_padded (by omega) (by omega)]

/-- **A day of the years up to 9999 is written `YYYY-MM-DD`.** -/
theorem isoOf_number (h : d.year ≤ 9999) : isoOf d.number = d.iso := by
  have htext : toISOString d.number = d.iso ++ "T00:00:00.000Z".toList := by
    unfold toISOString CalendarDay.iso
    dsimp only
    rw [yearOf_number, monthAndDay_number, if_pos h]
    simp
  rw [isoOf, htext, List.take_left' (length_iso d h)]

/-- A day past 9999 is written with a sign. -/
theorem isoOf_late (h : 9999 < d.year) : (isoOf d.number).head? = some '+' := by
  unfold isoOf toISOString
  dsimp only
  rw [yearOf_number, if_neg (Nat.not_le.2 h)]
  rfl

theorem head_iso : d.iso.head? ≠ some '+' := by
  intro hhead
  have hne : padded 4 d.year ≠ [] := by
    unfold padded decimal
    exact List.append_ne_nil_of_right_ne_nil _ Nat.toDigits_ne_nil
  have hmem : '+' ∈ padded 4 d.year := by
    unfold CalendarDay.iso at hhead
    rw [List.head?_append_of_ne_nil _ hne] at hhead
    exact List.mem_of_mem_head? hhead
  have := isDigit_of_mem_padded hmem
  cases this

/-- Every number from 1 on is that of a day. -/
theorem exists_number {n : Nat} (h : 1 ≤ n) : ∃ d : CalendarDay, d.number = n :=
  ⟨CalendarDay.next^[n - 1] CalendarDay.first, by
    rw [CalendarDay.number_iterate, show CalendarDay.first.number = 1 from rfl]
    omega⟩

/-- The number of 31 December 9999. -/
def LAST_DAY : Nat := 3652425

theorem year_le_iff : d.year ≤ 9999 ↔ d.number ≤ LAST_DAY := by
  have hend : newYear 10000 = LAST_DAY + 1 := by decide +kernel
  constructor
  · intro h
    have := number_lt_newYear d
    have hmono := newYear_mono (show d.year + 1 ≤ 10000 by omega)
    omega
  · intro h
    by_contra hlate
    have hmono := newYear_mono (show 10000 ≤ d.year by omega)
    have hle : newYear d.year ≤ d.number := by rw [number_eq]; omega
    omega

/-- The text of a day is one of `YYYY-MM-DD` up to the end of 9999. -/
theorem isoOf_iff {n : Nat} (h : 1 ≤ n) :
    (∃ d : CalendarDay, d.year ≤ 9999 ∧ isoOf n = d.iso) ↔ n ≤ LAST_DAY := by
  obtain ⟨e, rfl⟩ := exists_number h
  rw [← year_le_iff]
  constructor
  · rintro ⟨d, -, hd⟩
    by_contra hlate
    exact head_iso d (hd ▸ isoOf_late e (by omega))
  · exact fun hyear => ⟨e, hyear, isoOf_number e hyear⟩

/-! ## Serials -/

section
variable {serial serial' text text' : Text} {date1904 : Bool} {n n' : Nat}

/-- The whole days of a serial. -/
def serialDays (serial : Text) : Option Nat := (serialMatch serial).map digitsOf

/-- The number of the day a serial stands for: serials past 60 of the 1900 system are one late. -/
def serialNumber (date1904 : Bool) (n : Nat) : Nat :=
  if date1904 then dayNumber 1904 1 1 + n else dayNumber 1899 12 31 + if 60 < n then n - 1 else n

theorem numberOf_small (h : n < 2 ^ 53) : numberOf n = some n := by
  unfold numberOf
  rw [if_pos h]
  rfl

theorem numberOf_large {days : Nat} (h : 2 ^ 53 ≤ n) (hdays : numberOf n = some days) : 2 ^ 53 ≤ days := by
  unfold numberOf at hdays
  rw [if_neg (Nat.not_lt.2 h)] at hdays
  split at hdays
  · have hsame : toDouble n = days := Option.some.inj hdays
    exact hsame ▸ le_toDouble h
  · cases hdays

/-- A number that is in range once it is read was in range, and is read exactly. -/
theorem numberOf_safe {days : Nat} (h : numberOf n = some days) (hle : ¬ (maxSafe < days ∨ 2958465 < days)) :
    days = n ∧ n ≤ 2958465 := by
  by_cases hn : n < 2 ^ 53
  · rw [numberOf_small hn] at h
    cases h
    exact ⟨rfl, by omega⟩
  · have := numberOf_large (Nat.le_of_not_lt hn) h
    omega

theorem serialNumber_1904 : serialNumber true n = dayNumber 1904 1 1 + n := rfl

theorem serialNumber_1900 : serialNumber false n = dayNumber 1899 12 31 + if 60 < n then n - 1 else n := rfl

theorem excelSerialToIso_ok : excelSerialToIso serial date1904 = .ok text ↔
    ∃ n, serialDays serial = some n ∧ n ≤ 2958465 ∧ (date1904 = false → n ≠ 0 ∧ n ≠ 60) ∧
      text = isoOf (serialNumber date1904 n) := by
  unfold excelSerialToIso serialDays
  cases serialMatch serial with
  | none => simp
  | some whole =>
    dsimp only [Option.map_some]
    constructor
    · intro h
      split at h
      · cases h
      · rename_i days hdays
        split at h
        · cases h
        · rename_i hle
          obtain ⟨rfl, hrange⟩ := numberOf_safe hdays hle
          refine ⟨_, rfl, hrange, ?_⟩
          cases date1904 with
          | true =>
            cases h
            exact ⟨fun hf => absurd hf (by simp), rfl⟩
          | false =>
            rw [if_neg (by simp)] at h
            split at h
            · cases h
            · rename_i hzero
              split at h
              · cases h
              · rename_i hsixty
                cases h
                exact ⟨fun _ => ⟨hzero, hsixty⟩, rfl⟩
    · rintro ⟨n, hn, hle, hreal, rfl⟩
      cases hn
      rw [numberOf_small (by omega)]
      dsimp only
      rw [if_neg (by unfold maxSafe; omega)]
      cases date1904 with
      | true => rfl
      | false =>
        obtain ⟨hzero, hsixty⟩ := hreal rfl
        rw [if_neg (by simp), if_neg hzero, if_neg hsixty, serialNumber_1900]

theorem newYear_1904 : dayNumber 1904 1 1 = 695422 := by decide

theorem newYear_1900 : dayNumber 1899 12 31 = 693961 := by decide

theorem serialNumber_pos : 1 ≤ serialNumber date1904 n := by
  cases date1904 with
  | true =>
    rw [serialNumber_1904, newYear_1904]
    omega
  | false =>
    rw [serialNumber_1900, newYear_1900]
    omega

/-- The 1900 system ends with 9999, and the 1904 system 1,462 days before its last serial does. -/
theorem serialNumber_le (h : n ≤ 2958465) :
    serialNumber date1904 n ≤ LAST_DAY ↔ (date1904 = true → n ≤ 2957003) := by
  unfold LAST_DAY
  cases date1904 with
  | true =>
    rw [serialNumber_1904, newYear_1904, forall_prop_of_true rfl]
    omega
  | false =>
    rw [serialNumber_1900, newYear_1900]
    refine iff_of_true ?_ (by simp)
    split <;> omega

/-- The next serial of the system: 61 comes after 59 in the 1900 system. -/
def Follows (date1904 : Bool) (n n' : Nat) : Prop := n' = n + 1 ∨ date1904 = false ∧ n = 59 ∧ n' = 61

theorem serialNumber_follows (h : Follows date1904 n n') (hreal : date1904 = false → n ≠ 60 ∧ n' ≠ 60) :
    serialNumber date1904 n' = serialNumber date1904 n + 1 := by
  cases date1904 with
  | true =>
    rcases h with rfl | ⟨hf, -⟩
    · rfl
    · cases hf
  | false =>
    obtain ⟨hn, hn'⟩ := hreal rfl
    rw [serialNumber_1900, serialNumber_1900]
    rcases h with rfl | ⟨-, rfl, rfl⟩
    · by_cases hlate : 60 < n
      · rw [if_pos hlate, if_pos (by omega)]
        omega
      · rw [if_neg hlate, if_neg (by omega), Nat.add_assoc]
    · rfl

/-- An accepted serial stands for a day of `YYYY-MM-DD`, but in the 1904 system past 2,957,003. -/
theorem serial_day (hn : serialDays serial = some n) (h : excelSerialToIso serial date1904 = .ok text) :
    (∃ d : CalendarDay, d.year ≤ 9999 ∧ text = d.iso) ↔ (date1904 = true → n ≤ 2957003) := by
  obtain ⟨m, hm, hle, -, rfl⟩ := excelSerialToIso_ok.1 h
  cases hn.symm.trans hm
  rw [isoOf_iff serialNumber_pos, serialNumber_le hle]

/-- Serials that follow each other stand for days that do. -/
theorem serial_next (hn : serialDays serial = some n) (hn' : serialDays serial' = some n')
    (h : excelSerialToIso serial date1904 = .ok text) (h' : excelSerialToIso serial' date1904 = .ok text')
    (hf : Follows date1904 n n') :
    (∃ d : CalendarDay, d.next.year ≤ 9999 ∧ text = d.iso ∧ text' = d.next.iso) ↔
      (date1904 = true → n' ≤ 2957003) := by
  obtain ⟨m, hm, hle, hreal, rfl⟩ := excelSerialToIso_ok.1 h
  obtain ⟨m', hm', hle', hreal', rfl⟩ := excelSerialToIso_ok.1 h'
  cases hn.symm.trans hm
  cases hn'.symm.trans hm'
  have hnext := serialNumber_follows hf fun hd => ⟨(hreal hd).2, (hreal' hd).2⟩
  rw [← serialNumber_le hle', hnext]
  obtain ⟨d, hd⟩ : ∃ d : CalendarDay, d.number = serialNumber date1904 n := exists_number serialNumber_pos
  have hdnext : d.next.number = serialNumber date1904 n + 1 := by rw [CalendarDay.number_next, hd]
  constructor
  · rintro ⟨e, he, -, htext⟩
    rw [← isoOf_iff (Nat.le_add_left 1 _)]
    exact ⟨e.next, he, htext⟩
  · intro hlast
    have hyear' : d.next.year ≤ 9999 := (year_le_iff _).2 (by rw [hdnext]; exact hlast)
    have hyear : d.year ≤ 9999 := by
      rw [year_le_iff, hd]
      exact (Nat.lt_of_succ_le hlast).le
    exact ⟨d, hyear', by rw [← hd, isoOf_number d hyear], by rw [← hdnext, isoOf_number _ hyear']⟩

/-- A serial of the 1904 system is 1,462 less than that of the 1900 system for its day. -/
theorem serial_systems (hn : serialDays serial = some n) (hn' : serialDays serial' = some (n + 1462))
    (h : excelSerialToIso serial true = .ok text) : excelSerialToIso serial' false = .ok text ↔ n ≤ 2957003 := by
  obtain ⟨m, hm, hle, -, rfl⟩ := excelSerialToIso_ok.1 h
  cases hn.symm.trans hm
  have hsame : serialNumber false (n + 1462) = serialNumber true n := by
    rw [serialNumber_1900, serialNumber_1904, newYear_1904, newYear_1900, if_pos (by omega)]
    omega
  rw [excelSerialToIso_ok]
  constructor
  · rintro ⟨k, hk, hkle, -⟩
    cases hn'.symm.trans hk
    omega
  · exact fun hlast => ⟨_, hn', by omega, fun _ => ⟨by omega, by omega⟩, by rw [hsame]⟩

end

/-! ## Windows -/

theorem dateParse_iff {value : Text} {n : Nat} : dateParse value = some n ↔
    ∃ year month day, dateParts value = some (year, month, day) ∧
      (1 ≤ month ∧ month ≤ 12 ∧ 1 ≤ day ∧ day ≤ 31) ∧ dayNumber year month day = n := by
  unfold dateParse
  rw [Option.bind_eq_some_iff]
  constructor
  · rintro ⟨⟨year, month, day⟩, hparts, h⟩
    dsimp only at h
    split at h
    · rename_i hrange
      exact ⟨year, month, day, hparts, hrange, Option.some.inj h⟩
    · cases h
  · rintro ⟨year, month, day, hparts, hrange, h⟩
    exact ⟨(year, month, day), hparts, by dsimp only; rw [if_pos hrange, h]⟩

theorem dateParts_day (d : CalendarDay) (h : d.year ≤ 9999) : dateParts d.iso = some (d.year, d.month, d.day) := by
  have hmonth := d.month_le
  have hday := Nat.le_trans d.day_le (daysInMonth_le _ _)
  exact dateParts_iff.2 ⟨⟨by omega, by omega, by omega⟩, rfl⟩

theorem dateParse_day (d : CalendarDay) (h : d.year ≤ 9999) : dateParse d.iso = some d.number :=
  dateParse_iff.2 ⟨_, _, _, dateParts_day d h, ⟨d.month_pos, d.month_le, d.day_pos,
    Nat.le_trans d.day_le (daysInMonth_le _ _)⟩, rfl⟩

/-- What passes for an ISO date is the text of a day: `Date` reads no other back as it was. -/
theorem isIsoDate_iff {value : Text} : isIsoDate value = true ↔ ∃ d : CalendarDay, d.year ≤ 9999 ∧ value = d.iso := by
  unfold isIsoDate
  rw [beq_iff_eq]
  constructor
  · intro h
    obtain ⟨n, hn, hvalue⟩ := Option.map_eq_some_iff.1 h
    obtain ⟨year, month, day, hparts, ⟨hmonth, -, hday, -⟩, hnumber⟩ := dateParse_iff.1 hn
    have hpos : 1 ≤ n := by
      rw [← hnumber, dayNumber]
      omega
    obtain ⟨d, rfl⟩ := exists_number hpos
    by_cases hyear : d.year ≤ 9999
    · exact ⟨d, hyear, by rw [← hvalue, isoOf_number d hyear]⟩
    · -- A text with a sign is not in the form of a date.
      have hsign := isoOf_late d (by omega)
      rw [hvalue, (dateParts_iff.1 hparts).2] at hsign
      have hne : padded 4 year ≠ [] := by
        unfold padded decimal
        exact List.append_ne_nil_of_right_ne_nil _ Nat.toDigits_ne_nil
      rw [List.head?_append_of_ne_nil _ hne] at hsign
      have hdigit := isDigit_of_mem_padded (List.mem_of_mem_head? hsign)
      cases hdigit
  · rintro ⟨d, hyear, rfl⟩
    rw [dateParse_day d hyear, Option.map_some, isoOf_number d hyear]

/-- A deadline is the day so many days later, in the form `YYYY-MM-DD` where that day comes before the year 10000. -/
theorem deadline_day {deductionDate text : Text} {windowDays : Int}
    (h : deadlineFromWindow deductionDate windowDays = .ok text) :
    ∃ d : CalendarDay, d.year ≤ 9999 ∧ deductionDate = d.iso ∧
      ((∃ e : CalendarDay, e.year ≤ 9999 ∧ CalendarDay.next^[windowDays.toNat] d = e ∧ text = e.iso) ↔
        d.number + windowDays.toNat ≤ LAST_DAY) := by
  unfold deadlineFromWindow at h
  split at h
  · cases h
  rename_i hiso
  split at h
  · cases h
  rw [Bool.not_eq_true', Bool.not_eq_false] at hiso
  obtain ⟨d, hyear, rfl⟩ := isIsoDate_iff.1 hiso
  rw [dateParse_day d hyear] at h
  cases h
  have hnumber := CalendarDay.number_iterate d windowDays.toNat
  refine ⟨d, hyear, rfl, ?_⟩
  rw [← hnumber, ← year_le_iff]
  constructor
  · rintro ⟨e, he, rfl, -⟩
    exact he
  · exact fun hlast => ⟨_, hlast, rfl, isoOf_number _ hlast⟩

/-! ## Printed dates -/

section
variable {text original working day : Text} {order : DateOrder}

/-- The text of a day of the years 2000 to 2100. -/
def PrintedDay (day : Text) : Prop := ∃ d : CalendarDay, 2000 ≤ d.year ∧ d.year ≤ 2100 ∧ day = d.iso

theorem assemble_ok {year month date : Nat} (h : assemble year month date original = .ok day) : PrintedDay day := by
  unfold assemble MIN_YEAR MAX_YEAR at h
  split at h
  · cases h
  rename_i hyear
  split at h
  · cases h
  rename_i hmonth
  split at h
  · cases h
  rename_i hday
  cases h
  exact ⟨⟨year, month, date, by omega, by omega, by omega, by omega⟩, by dsimp only; omega, by dsimp only; omega, rfl⟩

theorem parseNamed_ok (h : parseNamed original working = .ok day) : PrintedDay day := by
  unfold parseNamed at h
  split at h
  · split at h
    · exact assemble_ok h
    · cases h
  · split at h
    · split at h
      · exact assemble_ok h
      · cases h
    · cases h

theorem parseNumeric_ok (h : parseNumeric original working order = .ok day) : PrintedDay day := by
  unfold parseNumeric at h
  split at h
  · exact assemble_ok h
  · exact assemble_ok h
  · split at h
    · exact assemble_ok h
    · exact parseNamed_ok h
  · exact parseNamed_ok h

theorem parsePrintedDate_ok (h : parsePrintedDate text order = .ok day) : PrintedDay day := by
  unfold parsePrintedDate at h
  dsimp only at h
  split at h
  · cases h
  · split at h
    · exact assemble_ok h
    · exact parseNumeric_ok h

/-- The text of a day has no white space to lose. -/
theorem collapse_trim_iso (d : CalendarDay) : collapse (trim d.iso) = d.iso := by
  have hspace : ∀ c ∈ d.iso, isSpace c = false := by
    intro c hc
    have hdigit : ∀ {k n : Nat}, c ∈ padded k n → isSpace c = false := fun hmem => by
      obtain ⟨-, hlow, hhigh⟩ := digitsOf_digit (isDigit_of_mem_padded hmem)
      unfold isSpace
      simp only [Bool.or_eq_false_iff, Bool.and_eq_false_iff, decide_eq_false_iff_not, beq_eq_false_iff_ne]
      omega
    unfold CalendarDay.iso at hc
    rcases List.mem_append.1 hc with hc | hc
    · exact hdigit hc
    rcases List.mem_cons.1 hc with rfl | hc
    · decide
    rcases List.mem_append.1 hc with hc | hc
    · exact hdigit hc
    rcases List.mem_cons.1 hc with rfl | hc
    · decide
    · exact hdigit hc
  have htrim : trim d.iso = d.iso := trimmed_of_isSpace hspace
  rw [htrim, collapse_eq_self hspace]

/-- A day is read back as it is, in every order. -/
theorem parsePrintedDate_day (h : PrintedDay day) (order : DateOrder) : parsePrintedDate day order = .ok day := by
  obtain ⟨d, hmin, hmax, rfl⟩ := h
  have hne : d.iso ≠ [] := List.ne_nil_of_length_pos (by rw [length_iso d (by omega)]; omega)
  have hmonth := d.month_pos
  have hmonth' := d.month_le
  have hday := d.day_pos
  have hday' := d.day_le
  unfold parsePrintedDate
  dsimp only
  rw [collapse_trim_iso, if_neg hne, dateParts_day d (by omega)]
  dsimp only
  unfold assemble MIN_YEAR MAX_YEAR
  rw [if_neg (by omega), if_neg (by omega), if_neg (by omega)]
  rfl

end

/-- **Computed dates are real days** up to the end of 9999. A serial of the 1904 system past 2,957,003, and a window
that ends after 9999, are accepted and give a text that is no day's; every other accepted input gives the day it stands
for, and every printed date that is read gives a day that is read back as it is. -/
theorem computed_dates (text : Text) :
    (∀ serial date1904 n, serialDays serial = some n → excelSerialToIso serial date1904 = .ok text →
      ((∃ d : CalendarDay, d.year ≤ 9999 ∧ text = d.iso) ↔ (date1904 = true → n ≤ 2957003))) ∧
    (∀ serial serial' date1904 n n' text', serialDays serial = some n → serialDays serial' = some n' →
      excelSerialToIso serial date1904 = .ok text → excelSerialToIso serial' date1904 = .ok text' →
      Follows date1904 n n' →
      ((∃ d : CalendarDay, d.next.year ≤ 9999 ∧ text = d.iso ∧ text' = d.next.iso) ↔
        (date1904 = true → n' ≤ 2957003))) ∧
    (∀ serial serial' n, serialDays serial = some n → serialDays serial' = some (n + 1462) →
      excelSerialToIso serial true = .ok text → (excelSerialToIso serial' false = .ok text ↔ n ≤ 2957003)) ∧
    (∀ deductionDate windowDays, deadlineFromWindow deductionDate windowDays = .ok text →
      ∃ d : CalendarDay, d.year ≤ 9999 ∧ deductionDate = d.iso ∧
        ((∃ e : CalendarDay, e.year ≤ 9999 ∧ CalendarDay.next^[windowDays.toNat] d = e ∧ text = e.iso) ↔
          d.number + windowDays.toNat ≤ LAST_DAY)) ∧
    ∀ order day, parsePrintedDate text order = .ok day →
      PrintedDay day ∧ ∀ order', parsePrintedDate day order' = .ok day :=
  ⟨fun _ _ _ hn h => serial_day hn h, fun _ _ _ _ _ _ hn hn' h h' hf => serial_next hn hn' h h' hf,
    fun _ _ _ hn hn' h => serial_systems hn hn' h, fun _ _ h => deadline_day h,
    fun _ _ h => ⟨parsePrintedDate_ok h, parsePrintedDate_day (parsePrintedDate_ok h)⟩⟩

/-- The first serial of the 1904 system that is not a day's, and the first window. -/
theorem late_dates : excelSerialToIso "2957004".toList true = .ok "+010000-01".toList ∧
    deadlineFromWindow "9999-12-31".toList 1 = .ok "+010000-01".toList ∧
    ¬ (∀ serial date1904 text, excelSerialToIso serial date1904 = .ok text →
      ∃ d : CalendarDay, d.year ≤ 9999 ∧ text = d.iso) ∧
    ¬ ∀ deductionDate windowDays text, deadlineFromWindow deductionDate windowDays = .ok text →
      ∃ d : CalendarDay, d.year ≤ 9999 ∧ text = d.iso := by
  have hserial : excelSerialToIso "2957004".toList true = .ok "+010000-01".toList := by decide +kernel
  have hwindow : deadlineFromWindow "9999-12-31".toList 1 = .ok "+010000-01".toList := by decide +kernel
  refine ⟨hserial, hwindow, fun hall => ?_, fun hall => ?_⟩
  · obtain ⟨d, -, hd⟩ := hall _ _ _ hserial
    exact head_iso d (hd ▸ rfl)
  · obtain ⟨d, -, hd⟩ := hall _ _ _ hwindow
    exact head_iso d (hd ▸ rfl)

end Recouple.Dates
