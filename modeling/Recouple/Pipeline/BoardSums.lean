import Recouple.Pipeline.RetailerBoard
import Recouple.Lib.GroupedSums

/-!
# What the board's figures add up to

`addTotals_ok`: the figures of sound rows are added up field by field (`sumTotals`), counts while their sum is safe
and money while every running sum is. `addTotals_error`: they fail by overflow alone. `sumTotals_groups`: over rows
grouped by a key, the groups' figures add up to those of all rows.
-/

namespace Recouple.Pipeline.Board
open Js KeyedFold

/-! ## Counts -/

/-- The running count is the sum while that is safe, and past the safe range once the sum is. -/
def Tracks (total sum : Int) : Prop := total = sum ∧ InRange sum ∨ maxSafe < total ∧ maxSafe < sum

theorem Tracks.inRange {total sum : Int} (h : Tracks total sum) : InRange total ↔ InRange sum := by
  unfold Tracks InRange at *
  omega

theorem Tracks.step {total sum value : Int} (h : Tracks total sum) (hs : 0 ≤ sum) (hv : 0 ≤ value) :
    Tracks (toDoubleInt (total + value)) (sum + value) := by
  by_cases hr : InRange (total + value)
  · rw [toDoubleInt_of_safe hr.1 hr.2]
    unfold Tracks InRange at *
    omega
  · have hlarge := toDoubleInt_of_unsafe hr
    have hnonneg : 0 ≤ total + value := by unfold Tracks at h; unfold maxSafe at h; omega
    have hpos : 0 ≤ toDoubleInt (total + value) := by
      unfold toDoubleInt
      rw [if_neg (by omega)]
      exact Int.natCast_nonneg _
    unfold Tracks InRange maxSafe at *
    omega

theorem foldlM_countStep_ok {t : Int} : ∀ {values : List Int} {total sum : Int}, Tracks total sum → 0 ≤ sum →
    values.foldlM countStep total = .ok t → (∀ v ∈ values, 0 ≤ v) ∧ Tracks t (sum + values.sum)
  | [], total, sum, h, _, hok => by
    cases hok
    simpa using h
  | v :: values, total, sum, h, hs, hok => by
    rw [List.foldlM_cons, bind_ok] at hok
    obtain ⟨next, hnext, hok⟩ := hok
    unfold countStep at hnext
    split at hnext
    · rename_i hv
      cases hnext
      obtain ⟨hall, ht⟩ := foldlM_countStep_ok (h.step hs hv.2) (by omega) hok
      refine ⟨List.forall_mem_cons.2 ⟨hv.2, hall⟩, ?_⟩
      rwa [List.sum_cons, ← Int.add_assoc]
    · cases hnext

theorem foldlM_countStep_returns {values : List Int} (h : ∀ v ∈ values, InRange v ∧ 0 ≤ v) (total : Int) :
    ∃ t, values.foldlM countStep total = .ok t := by
  induction values generalizing total with
  | nil => exact ⟨total, rfl⟩
  | cons v values ih =>
    rw [List.forall_mem_cons] at h
    rw [List.foldlM_cons, countStep, if_pos h.1]
    exact ih h.2 _

theorem le_sum {values : List Int} (h : ∀ v ∈ values, 0 ≤ v) : ∀ v ∈ values, v ≤ values.sum := fun v hv =>
  List.single_le_sum h v hv

theorem count_ok {values : List Int} {t : Int} :
    count values = .ok t ↔ ((∀ v ∈ values, 0 ≤ v) ∧ values.sum ≤ maxSafe) ∧ t = values.sum := by
  have hzero : Tracks 0 0 := .inl ⟨rfl, by decide⟩
  have hif : ∀ total, (if InRange total then Except.ok total else .error RetailerBoardError.countOverflowed) = .ok t ↔
      InRange total ∧ t = total := by
    intro total
    split <;> simp_all [eq_comm]
  rw [count, bind_ok]
  simp only [hif]
  constructor
  · rintro ⟨total, htotal, hr, rfl⟩
    obtain ⟨hall, ht⟩ := foldlM_countStep_ok hzero (le_refl 0) htotal
    rw [Int.zero_add] at ht
    have hsum := ht.inRange.1 hr
    refine ⟨⟨hall, hsum.2⟩, ?_⟩
    rcases ht with h | h
    · exact h.1
    · exact absurd hsum.2 (not_le.2 h.2)
  · rintro ⟨⟨hall, hmax⟩, rfl⟩
    obtain ⟨total, htotal⟩ := foldlM_countStep_returns
      (fun v hv => ⟨⟨(by decide : -maxSafe ≤ 0).trans (hall v hv), (le_sum hall v hv).trans hmax⟩, hall v hv⟩) 0
    obtain ⟨-, ht⟩ := foldlM_countStep_ok hzero (le_refl 0) htotal
    rw [Int.zero_add] at ht
    have hsum : InRange values.sum := ⟨(by decide : -maxSafe ≤ 0).trans (List.sum_nonneg hall), hmax⟩
    refine ⟨total, htotal, ht.inRange.2 hsum, ?_⟩
    rcases ht with h | h
    · exact h.1.symm
    · exact absurd hmax (not_le.2 h.2)

/-- A count of counts fails by overflow alone. -/
theorem count_error {values : List Int} {e : RetailerBoardError} (hall : ∀ v ∈ values, InRange v ∧ 0 ≤ v)
    (h : count values = .error e) : e = .countOverflowed ∧ maxSafe < values.sum := by
  have hsum : maxSafe < values.sum := by
    by_contra hle
    rw [count_ok.2 ⟨⟨fun v hv => (hall v hv).2, not_lt.1 hle⟩, rfl⟩] at h
    cases h
  obtain ⟨total, htotal⟩ := foldlM_countStep_returns hall 0
  rw [count, htotal] at h
  change (if InRange total then Except.ok total else .error RetailerBoardError.countOverflowed) = .error e at h
  split at h
  · cases h
  · cases h
    exact ⟨rfl, hsum⟩

/-! ## Money -/

theorem mapM_cents_ok {values : List Int} {amounts : List Cents} :
    values.mapM cents = .ok amounts ↔ amounts.map (·.val) = values := by
  rw [mapM_iff_forall₂]
  constructor
  · intro h
    have hvals : values.map id = amounts.map (·.val) := map_eq_of_forall₂ (fun _ _ hc => (cents_ok.1 hc).symm) h
    rw [← hvals, List.map_id]
  · rintro rfl
    exact List.forall₂_map_left_iff.2 (List.forall₂_same.2 fun _ _ => cents_ok.2 rfl)

theorem money_ok {values : List Int} {t : Int} : money values = .ok t ↔
    ((∀ v ∈ values, InRange v) ∧ ∀ k, InRange (values.take k).sum) ∧ t = values.sum := by
  rw [money, KeyedFold.mapError_ok, bind_ok]
  constructor
  · rintro ⟨total, hsum, ht⟩
    rw [bind_ok] at hsum
    obtain ⟨amounts, hamounts, hsum⟩ := hsum
    rw [mapM_cents_ok] at hamounts
    rw [sumCents_ok] at hsum
    cases ht
    subst hamounts
    refine ⟨⟨?_, fun k => ?_⟩, hsum.2⟩
    · intro v hv
      obtain ⟨amount, -, rfl⟩ := List.mem_map.1 hv
      exact amount.inRange
    · rw [← List.map_take]
      exact hsum.1 k
  · rintro ⟨⟨hall, hruns⟩, rfl⟩
    obtain ⟨amounts, hamounts⟩ : ∃ amounts, values.mapM cents = .ok amounts :=
      mapM_returns fun v hv => ⟨⟨v, (hall v hv).1, (hall v hv).2⟩, cents_ok.2 rfl⟩
    have hvals := mapM_cents_ok.1 hamounts
    have hvruns : ∀ k, InRange ((amounts.take k).map (·.val)).sum := fun k => by
      rw [List.map_take, hvals]
      exact hruns k
    obtain ⟨total, htotal⟩ := sumCents_returns.2 hvruns
    have hval := (sumCents_ok.1 htotal).2
    refine ⟨total, bind_ok.2 ⟨amounts, hamounts, htotal⟩, ?_⟩
    rw [hval, hvals]

/-- The error of money out of the safe range. -/
def IsMoney (e : RetailerBoardError) : Prop := ∃ v, e = .money (.outOfRange v)

theorem cents_error_eq {v : Int} {e : MoneyError} (h : cents v = .error e) : e = .outOfRange v := by
  unfold cents at h
  split at h
  · cases h
  · cases h
    rfl

theorem sumCents_error {values : List Cents} {e : MoneyError} (h : sumCents values = .error e) :
    ∃ v, e = .outOfRange v := by
  unfold sumCents at h
  generalize ZERO = total at h
  induction values generalizing total with
  | nil => cases h
  | cons v values ih =>
    rw [List.foldlM_cons] at h
    rcases bind_error h with h | ⟨next, -, h⟩
    · exact ⟨_, cents_error_eq h⟩
    · exact ih _ h

theorem money_error {values : List Int} {e : RetailerBoardError} (h : money values = .error e) : IsMoney e := by
  unfold money at h
  cases hsum : values.mapM cents >>= sumCents >>= fun total => Except.ok total.val with
  | ok t =>
    rw [hsum] at h
    cases h
  | error m =>
    rw [hsum] at h
    cases h
    rcases bind_error hsum with hsum | ⟨total, -, hsum⟩
    · rcases bind_error hsum with hsum | ⟨amounts, -, hsum⟩
      · obtain ⟨v, -, hv⟩ := mapM_error hsum
        exact ⟨v, by rw [cents_error_eq hv]⟩
      · obtain ⟨v, rfl⟩ := sumCents_error hsum
        exact ⟨v, rfl⟩
    · cases hsum


/-! ## Totals -/

def countFields : List (PayerTotals → Int) :=
  [(·.openCases), (·.closedCases), (·.declinedCases), (·.awaitingApprovalCases), (·.recoveredUnrecordedCases),
    (·.atRiskCases), (·.listableCases)]

def moneyFields : List (PayerTotals → Int) :=
  [(·.inDisputeCents), (·.recoveredCents), (·.declinedCents), (·.atRiskCents)]

/-- Every figure added up, and the largest age. -/
def sumTotals (rows : List PayerTotals) : PayerTotals where
  openCases := (rows.map (·.openCases)).sum
  closedCases := (rows.map (·.closedCases)).sum
  declinedCases := (rows.map (·.declinedCases)).sum
  awaitingApprovalCases := (rows.map (·.awaitingApprovalCases)).sum
  inDisputeCents := (rows.map (·.inDisputeCents)).sum
  recoveredCents := (rows.map (·.recoveredCents)).sum
  recoveredUnrecordedCases := (rows.map (·.recoveredUnrecordedCases)).sum
  declinedCents := (rows.map (·.declinedCents)).sum
  atRiskCases := (rows.map (·.atRiskCases)).sum
  atRiskCents := (rows.map (·.atRiskCents)).sum
  oldestOpenDays := (rows.filterMap (·.oldestOpenDays)).max?
  listableCases := (rows.map (·.listableCases)).sum

/-- The ages are whole days and the counts are counts. -/
structure Counted (row : PayerTotals) : Prop where
  age : ∀ days, row.oldestOpenDays = some days → InRange days
  counts : ∀ f ∈ countFields, InRange (f row) ∧ 0 ≤ f row

/-- What the sums over the rows need: the counts' sums, and the running sums of money, are safe. -/
structure Summable (rows : List PayerTotals) : Prop where
  counts : ∀ f ∈ countFields, (rows.map f).sum ≤ maxSafe
  money : ∀ f ∈ moneyFields, (∀ row ∈ rows, InRange (f row)) ∧ ∀ k, InRange ((rows.map f).take k).sum

theorem age_ok {days : Int} : age days = .ok () ↔ InRange days := by
  unfold age
  split
  · simp_all
  · simp_all

theorem addTotals_returns_iff {rows : List PayerTotals} {t : PayerTotals} : addTotals rows = .ok t ↔
    ((∀ days ∈ rows.filterMap (·.oldestOpenDays), InRange days) ∧
      (∀ f ∈ countFields, (∀ v ∈ rows.map f, 0 ≤ v) ∧ (rows.map f).sum ≤ maxSafe) ∧
      ∀ f ∈ moneyFields, (∀ v ∈ rows.map f, InRange v) ∧ ∀ k, InRange ((rows.map f).take k).sum) ∧
    t = sumTotals rows := by
  have hages : ((rows.filterMap (·.oldestOpenDays)).forM age = .ok ()) ↔
      ∀ days ∈ rows.filterMap (·.oldestOpenDays), InRange days := by
    rw [forM_ok]
    simp only [age_ok]
  simp only [countFields, moneyFields, List.forall_mem_cons]
  simp only [addTotals, bind_ok, count_ok, money_ok]
  constructor
  · rintro ⟨⟨⟩, hforM, _, ⟨ho, rfl⟩, _, ⟨hc, rfl⟩, _, ⟨hd, rfl⟩, _, ⟨hw, rfl⟩, _, ⟨mi, rfl⟩, _, ⟨mr, rfl⟩, _, ⟨hu, rfl⟩,
      _, ⟨md, rfl⟩, _, ⟨ha, rfl⟩, _, ⟨ma, rfl⟩, _, ⟨hl, rfl⟩, ht⟩
    cases ht
    exact ⟨⟨hages.1 hforM, ⟨ho, hc, hd, hw, hu, ha, hl, by simp⟩, mi, mr, md, ma, by simp⟩, rfl⟩
  · rintro ⟨⟨hforM, ⟨ho, hc, hd, hw, hu, ha, hl, -⟩, mi, mr, md, ma, -⟩, rfl⟩
    exact ⟨(), hages.2 hforM, _, ⟨ho, rfl⟩, _, ⟨hc, rfl⟩, _, ⟨hd, rfl⟩, _, ⟨hw, rfl⟩, _, ⟨mi, rfl⟩, _, ⟨mr, rfl⟩, _,
      ⟨hu, rfl⟩, _, ⟨md, rfl⟩, _, ⟨ha, rfl⟩, _, ⟨ma, rfl⟩, _, ⟨hl, rfl⟩, rfl⟩

theorem addTotals_ok {rows : List PayerTotals} {t : PayerTotals} :
    addTotals rows = .ok t ↔ ((∀ row ∈ rows, Counted row) ∧ Summable rows) ∧ t = sumTotals rows := by
  rw [addTotals_returns_iff]
  refine and_congr_left fun _ => ⟨?_, ?_⟩
  · rintro ⟨hages, hcounts, hmoney⟩
    refine ⟨fun row hrow => ⟨fun days hdays => hages days (List.mem_filterMap.2 ⟨row, hrow, hdays⟩), fun f hf => ?_⟩,
      fun f hf => (hcounts f hf).2,
      fun f hf => ⟨fun row hrow => (hmoney f hf).1 _ (List.mem_map_of_mem hrow), (hmoney f hf).2⟩⟩
    obtain ⟨hall, hsum⟩ := hcounts f hf
    have hmem : f row ∈ rows.map f := List.mem_map_of_mem hrow
    exact ⟨⟨(by decide : -maxSafe ≤ 0).trans (hall _ hmem), (le_sum hall _ hmem).trans hsum⟩, hall _ hmem⟩
  · rintro ⟨hcounted, hsums⟩
    refine ⟨fun days hdays => ?_, fun f hf => ⟨fun v hv => ?_, hsums.counts f hf⟩,
      fun f hf => ⟨fun v hv => ?_, (hsums.money f hf).2⟩⟩
    · obtain ⟨row, hrow, hage⟩ := List.mem_filterMap.1 hdays
      exact (hcounted row hrow).age days hage
    · obtain ⟨row, hrow, rfl⟩ := List.mem_map.1 hv
      exact ((hcounted row hrow).counts f hf).2
    · obtain ⟨row, hrow, rfl⟩ := List.mem_map.1 hv
      exact (hsums.money f hf).1 row hrow

/-- Sound figures fail to add up by overflow alone. -/
theorem addTotals_error {rows : List PayerTotals} {e : RetailerBoardError} (hcounted : ∀ row ∈ rows, Counted row)
    (h : addTotals rows = .error e) :
    (e = .countOverflowed ∧ ∃ f ∈ countFields, maxSafe < (rows.map f).sum) ∨ IsMoney e := by
  have hages : (rows.filterMap (·.oldestOpenDays)).forM age = .ok () := forM_ok.2 fun days hdays => by
    obtain ⟨row, hrow, hage⟩ := List.mem_filterMap.1 hdays
    exact age_ok.2 ((hcounted row hrow).age days hage)
  have hcount : ∀ f ∈ countFields, ∀ e, count (rows.map f) = .error e →
      e = .countOverflowed ∧ ∃ f ∈ countFields, maxSafe < (rows.map f).sum := fun f hf e he => by
    obtain ⟨rfl, hsum⟩ := count_error (fun v hv => by
      obtain ⟨row, hrow, rfl⟩ := List.mem_map.1 hv
      exact (hcounted row hrow).counts f hf) he
    exact ⟨rfl, f, hf, hsum⟩
  unfold addTotals at h
  simp only [hages] at h
  rcases bind_error h with h | ⟨_, -, h⟩
  · cases h
  rcases bind_error h with h | ⟨_, -, h⟩
  · exact .inl (hcount _ (by simp [countFields]) e h)
  rcases bind_error h with h | ⟨_, -, h⟩
  · exact .inl (hcount _ (by simp [countFields]) e h)
  rcases bind_error h with h | ⟨_, -, h⟩
  · exact .inl (hcount _ (by simp [countFields]) e h)
  rcases bind_error h with h | ⟨_, -, h⟩
  · exact .inl (hcount _ (by simp [countFields]) e h)
  rcases bind_error h with h | ⟨_, -, h⟩
  · exact .inr (money_error h)
  rcases bind_error h with h | ⟨_, -, h⟩
  · exact .inr (money_error h)
  rcases bind_error h with h | ⟨_, -, h⟩
  · exact .inl (hcount _ (by simp [countFields]) e h)
  rcases bind_error h with h | ⟨_, -, h⟩
  · exact .inr (money_error h)
  rcases bind_error h with h | ⟨_, -, h⟩
  · exact .inl (hcount _ (by simp [countFields]) e h)
  rcases bind_error h with h | ⟨_, -, h⟩
  · exact .inr (money_error h)
  rcases bind_error h with h | ⟨_, -, h⟩
  · exact .inl (hcount _ (by simp [countFields]) e h)
  cases h

/-! ## Sums of sums -/

/-- Lists of which each is bounded by the other have one maximum. -/
theorem max?_congr {l l' : List Int} (h : ∀ x ∈ l, ∃ y ∈ l', x ≤ y) (h' : ∀ y ∈ l', ∃ x ∈ l, y ≤ x) :
    l.max? = l'.max? := by
  cases hmax : l.max? with
  | none =>
    rw [List.max?_eq_none_iff] at hmax
    subst hmax
    have : l' = [] := List.eq_nil_iff_forall_not_mem.2 fun y hy => by
      obtain ⟨x, hx, -⟩ := h' y hy
      exact List.not_mem_nil hx
    rw [this, List.max?_nil]
  | some m =>
    obtain ⟨hm, hle⟩ := List.max?_eq_some_iff.1 hmax
    have hbound : ∀ y ∈ l', y ≤ m := fun y hy => by
      obtain ⟨x, hx, hyx⟩ := h' y hy
      exact hyx.trans (hle x hx)
    obtain ⟨y, hy, hmy⟩ := h m hm
    have hym : y = m := le_antisymm (hbound y hy) hmy
    exact (List.max?_eq_some_iff.2 ⟨hym ▸ hy, hbound⟩).symm

theorem sumTotals_perm {rows rows' : List PayerTotals} (h : rows.Perm rows') : sumTotals rows = sumTotals rows' := by
  have hage : (rows.filterMap (·.oldestOpenDays)).max? = (rows'.filterMap (·.oldestOpenDays)).max? :=
    max?_congr (fun x hx => ⟨x, (h.filterMap _).mem_iff.1 hx, le_refl x⟩)
      fun x hx => ⟨x, (h.filterMap _).mem_iff.2 hx, le_refl x⟩
  have hsum : ∀ f : PayerTotals → Int, (rows.map f).sum = (rows'.map f).sum := fun f => (h.map f).sum_eq
  unfold sumTotals
  simp only [hsum, hage]

section
variable {α κ : Type} [DecidableEq κ] {key : α → κ} {totals : α → PayerTotals} {keys : List κ} {rows : List α}

/-- The groups' figures add up to those of all rows. -/
theorem sumTotals_groups (hk : keys.Nodup) (hcover : ∀ r ∈ rows, key r ∈ keys) :
    sumTotals (keys.map fun k => sumTotals ((GroupedSums.rowsOf key rows k).map totals)) =
      sumTotals (rows.map totals) := by
  have hsum : ∀ f : PayerTotals → Int, (∀ group : List PayerTotals, f (sumTotals group) = (group.map f).sum) →
      ((keys.map fun k => sumTotals ((GroupedSums.rowsOf key rows k).map totals)).map f).sum =
        ((rows.map totals).map f).sum := by
    intro f hf
    have hgroups := GroupedSums.sum_groups hk (fun r => f (totals r)) hcover
    simp only [List.map_map]
    rw [show (f ∘ totals) = fun r => f (totals r) from rfl, ← hgroups]
    congr 1
    exact List.map_congr_left fun k _ => by
      rw [Function.comp_apply, hf, List.map_map]
      rfl
  have hage : ((keys.map fun k => sumTotals ((GroupedSums.rowsOf key rows k).map totals)).filterMap
      (·.oldestOpenDays)).max? = ((rows.map totals).filterMap (·.oldestOpenDays)).max? := by
    refine max?_congr (fun x hx => ?_) fun x hx => ?_
    · obtain ⟨group, hgroup, hx⟩ := List.mem_filterMap.1 hx
      obtain ⟨k, -, rfl⟩ := List.mem_map.1 hgroup
      obtain ⟨row, hrow, hxrow⟩ := List.mem_filterMap.1 (List.max?_eq_some_iff.1 hx).1
      obtain ⟨r, hr, rfl⟩ := List.mem_map.1 hrow
      exact ⟨x, List.mem_filterMap.2 ⟨_, List.mem_map_of_mem (GroupedSums.mem_rowsOf.1 hr).1, hxrow⟩, le_refl x⟩
    · obtain ⟨row, hrow, hxrow⟩ := List.mem_filterMap.1 hx
      obtain ⟨r, hr, rfl⟩ := List.mem_map.1 hrow
      have hmem : x ∈ ((GroupedSums.rowsOf key rows (key r)).map totals).filterMap (·.oldestOpenDays) :=
        List.mem_filterMap.2 ⟨_, List.mem_map_of_mem (GroupedSums.mem_rowsOf.2 ⟨hr, rfl⟩), hxrow⟩
      obtain ⟨m, hm⟩ := Option.isSome_iff_exists.1 (List.isSome_max?_of_mem hmem)
      exact ⟨m, List.mem_filterMap.2 ⟨_, List.mem_map_of_mem (hcover r hr), hm⟩,
        (List.max?_eq_some_iff.1 hm).2 x hmem⟩
  simp only [sumTotals] at hage hsum ⊢
  rw [hage]
  congr 1
  all_goals exact hsum _ fun _ => rfl

end

end Recouple.Pipeline.Board
