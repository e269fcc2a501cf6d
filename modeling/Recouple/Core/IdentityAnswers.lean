import Recouple.Core.CalendarDays
import Recouple.Lib.SortByKey

/-!
# What identity resolution answers: `packages/core-domain/src/identity.ts` (118-228)

| here | there |
| --- | --- |
| `Named`, `Carried` | what the first rule finds, as a set |
| `SameFacts`, `Agreed` | what the second finds |
| `Answers` | the four answers, said of the two sets |
| `kind`, `ids`, `basis` | what an answer says, but for the identifier that was met first |

`Answers` mentions no list, so an answer that meets it is the same for every order and repetition (`answers_unique`).
-/

namespace Recouple
open Js FirstSeen

/-! ## The answers -/

inductive ResolutionKind
  | exact
  | probable
  | ambiguous
  | none
deriving DecidableEq

namespace IdentityResolution

def kind : IdentityResolution → ResolutionKind
  | exact _ _ => .exact
  | probable _ _ => .probable
  | ambiguous _ _ => .ambiguous
  | none => .none

def ids : IdentityResolution → List CaseId
  | exact id _ => [id]
  | probable id _ => [id]
  | ambiguous ids _ => ids
  | none => []

def basis : IdentityResolution → List Text
  | exact _ _ => []
  | probable _ basis => basis
  | ambiguous _ basis => basis
  | none => []

end IdentityResolution

section
variable (named : KnownIdentifier → Prop) (agreed : KnownDeduction → Prop) (basisOf : KnownDeduction → List Text)

/-- A deduction that a named identifier points at. -/
def Carried (id : CaseId) : Prop := ∃ known, named known ∧ known.deductionId = id

/-- The sorted set of the ids that are so. -/
structure IsSortedSet (p : CaseId → Prop) (ids : List CaseId) : Prop where
  sorted : ids.Pairwise (· < ·)
  mem : ∀ id, id ∈ ids ↔ p id

open Classical in
/-- What an answer says of the identifiers that are named and the deductions that agree. -/
inductive Answers : IdentityResolution → Prop
  | exact {known : KnownIdentifier} : named known → (∀ id, Carried named id ↔ id = known.deductionId) →
    Answers (.exact known.deductionId known)
  | named {ids : List CaseId} {basis : List Text} : 2 ≤ ids.length → IsSortedSet (Carried named) ids →
    basis.Pairwise textLt → (∀ name, name ∈ basis ↔ ∃ known, named known ∧ known.kind.text = name) →
    Answers (.ambiguous ids basis)
  | probable {candidate : KnownDeduction} : (∀ id, ¬ Carried named id) → agreed candidate →
    (∀ other, agreed other → other = candidate) → Answers (.probable candidate.deductionId (basisOf candidate))
  | agreed {ids : List CaseId} : (∀ id, ¬ Carried named id) → 2 ≤ ids.length →
    IsSortedSet (fun id => ∃ candidate, agreed candidate ∧ candidate.deductionId = id) ids →
    Answers (.ambiguous ids
      (PROBABLE_BASIS_ORDER.filter fun name => ∃ candidate, agreed candidate ∧ name ∈ basisOf candidate))
  | none : (∀ id, ¬ Carried named id) → (∀ candidate, ¬ agreed candidate) → Answers .none

end

instance : Std.Irrefl textLt := ⟨textLt_irrefl⟩

instance : Std.Antisymm textLt := ⟨fun a _ hab hba => absurd (textLt_trans hab hba) (textLt_irrefl a)⟩

theorem IsSortedSet.unique {p : CaseId → Prop} {ids ids' : List CaseId} (h : IsSortedSet p ids) (h' : IsSortedSet p ids') :
    ids = ids' :=
  h.sorted.eq_of_mem_iff h'.sorted fun id => (h.mem id).trans (h'.mem id).symm

section
variable {named : KnownIdentifier → Prop} {agreed : KnownDeduction → Prop} {basisOf : KnownDeduction → List Text}

/-- The ids of an answer: those named, or where none is those that agree. -/
theorem Answers.isSortedSet {r : IdentityResolution} (h : Answers named agreed basisOf r) : IsSortedSet (fun id =>
    Carried named id ∨ (∀ id, ¬ Carried named id) ∧ ∃ candidate, agreed candidate ∧ candidate.deductionId = id) r.ids := by
  cases h with
  | @exact known hnamed honly =>
    refine ⟨List.pairwise_singleton _ _, fun id => List.mem_singleton.trans ?_⟩
    rw [← honly]
    exact ⟨.inl, fun h => h.resolve_right fun hnone => hnone.1 known.deductionId ⟨known, hnamed, rfl⟩⟩
  | @named ids basis hseveral hids _ _ =>
    refine ⟨hids.sorted, fun id => (hids.mem id).trans ⟨.inl, fun h => h.resolve_right fun hnone => ?_⟩⟩
    have hfirst : ids[0] ∈ ids := List.getElem_mem (by omega)
    exact hnone.1 _ ((hids.mem _).1 hfirst)
  | @probable candidate hnone hagreed honly =>
    refine ⟨List.pairwise_singleton _ _, fun id => List.mem_singleton.trans ⟨?_, ?_⟩⟩
    · rintro rfl
      exact .inr ⟨hnone, candidate, hagreed, rfl⟩
    · rintro (hcarried | ⟨-, other, hother, rfl⟩)
      · exact absurd hcarried (hnone id)
      · rw [honly other hother]
  | agreed hnone _ hids =>
    refine ⟨hids.sorted, fun id => (hids.mem id).trans ⟨fun h => .inr ⟨hnone, h⟩, fun h => ?_⟩⟩
    exact (h.resolve_left (hnone id)).2
  | none hnone hagreed =>
    refine ⟨List.Pairwise.nil, fun id => iff_of_false List.not_mem_nil ?_⟩
    rintro (hcarried | ⟨-, other, hother, -⟩)
    · exact hnone id hcarried
    · exact hagreed other hother

/-- **Two answers say the same**: kind, ids and basis are determined by the two sets. -/
theorem answers_unique {r r' : IdentityResolution} (h : Answers named agreed basisOf r)
    (h' : Answers named agreed basisOf r') : r.kind = r'.kind ∧ r.ids = r'.ids ∧ r.basis = r'.basis := by
  have hids : r.ids = r'.ids := h.isSortedSet.unique h'.isSortedSet
  have hlength := congrArg List.length hids
  -- the ids tell the answers apart, but for those of the one rule from those of the other
  have hcarried : ∀ {known}, named known → Carried named known.deductionId := fun hnamed => ⟨_, hnamed, rfl⟩
  cases h with
  | @exact known hnamed honly =>
    cases h' with
    | exact => exact ⟨rfl, hids, rfl⟩
    | named hseveral => exact absurd (hseveral.trans_eq hlength.symm) (Nat.not_succ_le_self 1)
    | probable hnone => exact absurd (hcarried hnamed) (hnone _)
    | agreed hnone => exact absurd (hcarried hnamed) (hnone _)
    | none hnone => exact absurd (hcarried hnamed) (hnone _)
  | @named ids basis hseveral hset hbasis hnames =>
    have hfirst : Carried named ids[0] := (hset.mem _).1 (List.getElem_mem (by omega))
    cases h' with
    | exact => exact absurd (hseveral.trans_eq hlength) (Nat.not_succ_le_self 1)
    | named hseveral' hset' hbasis' hnames' =>
      exact ⟨rfl, hids, hbasis.eq_of_mem_iff hbasis' fun name => (hnames name).trans (hnames' name).symm⟩
    | probable hnone => exact absurd hfirst (hnone _)
    | agreed hnone => exact absurd hfirst (hnone _)
    | none hnone => exact absurd hfirst (hnone _)
  | @probable candidate hnone hagreed honly =>
    cases h' with
    | exact hnamed => exact absurd (hcarried hnamed) (hnone _)
    | @named ids' basis' hseveral => exact absurd (hseveral.trans_eq hlength.symm) (Nat.not_succ_le_self 1)
    | @probable candidate' _ hagreed' => rw [honly candidate' hagreed']; exact ⟨rfl, rfl, rfl⟩
    | agreed _ hseveral => exact absurd (hseveral.trans_eq hlength.symm) (Nat.not_succ_le_self 1)
    | none _ hnothing => exact absurd hagreed (hnothing _)
  | @agreed ids hnone hseveral hset =>
    cases h' with
    | exact hnamed => exact absurd (hcarried hnamed) (hnone _)
    | @named ids' basis' hseveral' hset' =>
      have hfirst : Carried named ids'[0] := (hset'.mem _).1 (List.getElem_mem (by omega))
      exact absurd hfirst (hnone _)
    | probable => exact absurd (hseveral.trans_eq hlength) (Nat.not_succ_le_self 1)
    | agreed => exact ⟨rfl, hids, rfl⟩
    | none => exact absurd (hseveral.trans_eq hlength) (Nat.not_succ_le_zero 1)
  | none hnone hnothing =>
    cases h' with
    | exact hnamed => exact absurd (hcarried hnamed) (hnone _)
    | @named ids' basis' hseveral => exact absurd (hseveral.trans_eq hlength.symm) (Nat.not_succ_le_zero 1)
    | probable _ hagreed => exact absurd hagreed (hnothing _)
    | agreed _ hseveral => exact absurd (hseveral.trans_eq hlength.symm) (Nat.not_succ_le_zero 1)
    | none => exact ⟨rfl, rfl, rfl⟩

end

/-! ## What the two rules find -/

section
variable (T : CaseTables)

/-- A recorded identifier that one of the arrival's is, once folded: of its kind, and not blank. -/
def Named (identifiers : List ArrivedIdentifier) (recorded : List KnownIdentifier) (known : KnownIdentifier) : Prop :=
  known ∈ recorded ∧ ∃ arrived ∈ identifiers, known.kind = arrived.kind ∧
    identifierMatchKey T known.identifier = identifierMatchKey T arrived.identifier ∧
    identifierMatchKey T arrived.identifier ≠ []

/-- The invoice once folded, the cents, days of the calendar at most so many apart, and the debtor where both know it. -/
structure SameFacts (firstYear tolerance : Nat) (arrival : ArrivalIdentity) (candidate : KnownDeduction) : Prop where
  invoice : ∃ a c, arrival.invoiceNumber = some a ∧ candidate.invoiceNumber = some c ∧
    identifierMatchKey T a = identifierMatchKey T c ∧ identifierMatchKey T a ≠ []
  amount : arrival.amountCents = some candidate.amountCents
  date : ∃ a c : CalendarDay, arrival.deductionDate = some a.iso ∧ candidate.deductionDate = some c.iso ∧
    (firstYear ≤ a.year ∧ a.year ≤ 9999) ∧ (firstYear ≤ c.year ∧ c.year ≤ 9999) ∧ CalendarDay.Apart tolerance a c
  debtor : ∀ a c, arrival.debtorId = some a → candidate.debtorId = some c → a = c

def Agreed (firstYear tolerance : Nat) (arrival : ArrivalIdentity) (deductions : List KnownDeduction)
    (candidate : KnownDeduction) : Prop := candidate ∈ deductions ∧ SameFacts T firstYear tolerance arrival candidate

end

/-- The facts of which agreement is reported. -/
def factsOf (arrival : ArrivalIdentity) (candidate : KnownDeduction) : List Text :=
  if arrival.debtorId.isSome ∧ candidate.debtorId.isSome then PROBABLE_BASIS_ORDER else PROBABLE_BASIS_ORDER.take 3

section
variable {T : CaseTables} {arrival : ArrivalIdentity}

theorem mem_exactMatches {identifiers : List ArrivedIdentifier} {recorded : List KnownIdentifier}
    {known : KnownIdentifier} : known ∈ exactMatches T identifiers recorded ↔ Named T identifiers recorded known := by
  unfold exactMatches Named
  rw [List.mem_flatMap]
  constructor
  · rintro ⟨arrived, harrived, h⟩
    dsimp only at h
    split at h
    case isTrue => exact absurd h List.not_mem_nil
    case isFalse hkey =>
      rw [List.mem_filter, Bool.and_eq_true, decide_eq_true_eq, decide_eq_true_eq] at h
      exact ⟨h.1, arrived, harrived, h.2.1, h.2.2, hkey⟩
  · rintro ⟨hknown, arrived, harrived, hkind, hsame, hkey⟩
    refine ⟨arrived, harrived, ?_⟩
    dsimp only
    rw [if_neg hkey, List.mem_filter, Bool.and_eq_true, decide_eq_true_eq, decide_eq_true_eq]
    exact ⟨hknown, hkind, hsame⟩

/-- The debtor says nothing where one side does not know it. -/
theorem debtor_iff {candidate : KnownDeduction} {basis : List Text} :
    (match arrival.debtorId, candidate.debtorId with
      | some a, some c => if a = c then some PROBABLE_BASIS_ORDER else none
      | _, _ => some (PROBABLE_BASIS_ORDER.take 3)) = some basis ↔
    (∀ a c, arrival.debtorId = some a → candidate.debtorId = some c → a = c) ∧ factsOf arrival candidate = basis := by
  unfold factsOf
  cases arrival.debtorId with
  | none => simp
  | some a =>
    cases candidate.debtorId with
    | none => simp
    | some c =>
      by_cases hsame : a = c
      · simp [hsame]
      · simp [hsame]

theorem probableBasis_iff {candidate : KnownDeduction} {tolerance : Int} (h : 0 ≤ tolerance) {basis : List Text} :
    probableBasis T arrival candidate tolerance = some basis ↔
      SameFacts T 100 tolerance.toNat arrival candidate ∧ factsOf arrival candidate = basis := by
  have hapart : ∀ d e : CalendarDay, ((d.number : Int) - e.number).natAbs ≤ tolerance ↔
      CalendarDay.Apart tolerance.toNat d e := by
    intro d e
    rw [CalendarDay.apart_iff]
    omega
  unfold probableBasis
  simp only [Option.bind_eq_bind, Option.bind_eq_some_iff, Option.guard_eq_some', exists_const, isoDay_iff]
  constructor
  · rintro ⟨a, ha, c, hc, hkey, hsame, amount, hamount, rfl, _, ⟨day, hday, d, hyear, rfl, rfl⟩, _,
      ⟨day', hday', e, hyear', rfl, rfl⟩, hdays, hdebtor⟩
    obtain ⟨hdebtor, hbasis⟩ := debtor_iff.1 hdebtor
    exact ⟨⟨⟨a, c, ha, hc, hsame, hkey⟩, hamount, ⟨d, e, hday, hday', hyear, hyear', (hapart d e).1 hdays⟩, hdebtor⟩, hbasis⟩
  · rintro ⟨⟨⟨a, c, ha, hc, hsame, hkey⟩, hamount, ⟨d, e, hday, hday', hyear, hyear', hdays⟩, hdebtor⟩, hbasis⟩
    exact ⟨a, ha, c, hc, hkey, hsame, _, hamount, rfl, _, ⟨_, hday, d, hyear, rfl, rfl⟩, _,
      ⟨_, hday', e, hyear', rfl, rfl⟩, (hapart d e).2 hdays, debtor_iff.2 ⟨hdebtor, hbasis⟩⟩

/-! ## The answer -/

/-- Of an empty list no set is made, and of more than one row a set of more than one. -/
theorem isSortedSet_insertionSort {ids : List CaseId} (h : ids.Nodup) {p : CaseId → Prop} (hmem : ∀ id, id ∈ ids ↔ p id) :
    IsSortedSet p (ids.insertionSort (· ≤ ·)) := by
  constructor
  · have hkeys : ∀ a b : CaseId, a ≤ b ↔ id a ≤ id b := fun _ _ => Iff.rfl
    simpa using SortByKey.pairwise_lt_insertionSort hkeys (show (ids.map id).Nodup by simpa using h)
  · intro id
    rw [(List.perm_insertionSort _ _).mem_iff, hmem]

/-- The deductions that agree, with their facts, in their order. -/
def agreeing (T : CaseTables) (arrival : ArrivalIdentity) (deductions : List KnownDeduction) (tolerance : Int) :
    List (CaseId × List Text) :=
  deductions.filterMap fun candidate =>
    (probableBasis T arrival candidate tolerance).map fun basis => (candidate.deductionId, basis)

theorem mem_agreeing {deductions : List KnownDeduction} {tolerance : Int} (h : 0 ≤ tolerance) {row : CaseId × List Text} :
    row ∈ agreeing T arrival deductions tolerance ↔ ∃ candidate, Agreed T 100 tolerance.toNat arrival deductions candidate ∧
      row = (candidate.deductionId, factsOf arrival candidate) := by
  unfold agreeing Agreed
  simp only [List.mem_filterMap, Option.map_eq_some_iff, probableBasis_iff h]
  constructor
  · rintro ⟨candidate, hmem, basis, ⟨hfacts, rfl⟩, rfl⟩
    exact ⟨candidate, ⟨hmem, hfacts⟩, rfl⟩
  · rintro ⟨candidate, ⟨hmem, hfacts⟩, rfl⟩
    exact ⟨candidate, hmem, _, ⟨hfacts, rfl⟩, rfl⟩

open Classical in
/-- The basis of several is what one of them agrees on. -/
theorem basis_agreeing {deductions : List KnownDeduction} {tolerance : Int} (h : 0 ≤ tolerance) :
    (PROBABLE_BASIS_ORDER.filter fun name => (agreeing T arrival deductions tolerance).any fun p => name ∈ p.2) =
      PROBABLE_BASIS_ORDER.filter fun name => ∃ candidate,
        Agreed T 100 tolerance.toNat arrival deductions candidate ∧ name ∈ factsOf arrival candidate := by
  refine List.filter_congr fun name _ => ?_
  rw [Bool.eq_iff_iff, List.any_eq_true, decide_eq_true_eq]
  simp only [mem_agreeing h, decide_eq_true_eq]
  constructor
  · rintro ⟨row, ⟨candidate, hagreed, rfl⟩, hname⟩
    exact ⟨candidate, hagreed, hname⟩
  · rintro ⟨candidate, hagreed, hname⟩
    exact ⟨_, ⟨candidate, hagreed, rfl⟩, hname⟩

theorem nodup_agreeing {deductions : List KnownDeduction} {tolerance : Int}
    (hids : (deductions.map (·.deductionId)).Nodup) :
    ((agreeing T arrival deductions tolerance).map (·.1)).Nodup := by
  refine hids.sublist ?_
  unfold agreeing
  induction deductions with
  | nil => exact List.Sublist.slnil
  | cons candidate deductions ih =>
    have hrest := ih (List.nodup_cons.1 hids).2
    rw [List.filterMap_cons, List.map_cons]
    cases probableBasis T arrival candidate tolerance with
    | none => exact hrest.cons _
    | some basis => exact hrest.cons_cons _

theorem pairwise_textLt_insertionSort {names : List Text} (h : names.Nodup) :
    (names.insertionSort textLe).Pairwise textLt := by
  have hkeys : ∀ a b, textLe a b ↔ codeUnits a ≤ codeUnits b := fun _ _ => Iff.rfl
  have hsorted := SortByKey.pairwise_lt_insertionSort hkeys (h.map codeUnits_injective)
  exact List.Pairwise.of_map codeUnits (fun _ _ h => h) hsorted

theorem resolveIdentity_answers {recorded : List KnownIdentifier} {deductions : List KnownDeduction} {days : Option Int}
    (hdays : 0 ≤ days.getD DEFAULT_DATE_TOLERANCE_DAYS) (hids : (deductions.map (·.deductionId)).Nodup)
    {r : IdentityResolution} (h : resolveIdentity T arrival recorded deductions days = .ok r) :
    Answers (Named T arrival.identifiers recorded)
      (Agreed T 100 (days.getD DEFAULT_DATE_TOLERANCE_DAYS).toNat arrival deductions) (factsOf arrival) r := by
  set tolerance := days.getD DEFAULT_DATE_TOLERANCE_DAYS with htolerance
  have hcarried : ∀ id, id ∈ (firstBy (·.deductionId) (exactMatches T arrival.identifiers recorded)).map (·.deductionId) ↔
      Carried (Named T arrival.identifiers recorded) id := by
    intro id
    rw [mem_map_firstBy, List.mem_map]
    unfold Carried
    simp only [mem_exactMatches]
  have hnodup := nodup_firstBy (·.deductionId) (exactMatches T arrival.identifiers recorded)
  unfold resolveIdentity at h
  rw [← htolerance, if_neg (Int.not_lt.2 hdays)] at h
  dsimp only at h
  split at h
  next only heq =>
    obtain rfl := Except.ok.inj h
    have hmem : only ∈ firstBy (·.deductionId) (exactMatches T arrival.identifiers recorded) := by
      rw [heq]
      exact List.mem_singleton_self only
    refine .exact (mem_exactMatches.1 (mem_of_mem_firstBy _ hmem)) fun id => ?_
    rw [← hcarried, heq, List.map_singleton, List.mem_singleton]
  next first others hmore heq =>
    obtain rfl := Except.ok.inj h
    rw [heq] at hcarried hnodup
    refine .named ?_ (isSortedSet_insertionSort hnodup hcarried) ?_ fun name => ?_
    · rw [List.length_insertionSort, List.length_map, List.length_cons]
      have hne : others ≠ [] := by
        rintro rfl
        exact hmore rfl
      have := List.length_pos_iff.2 hne
      omega
    · exact pairwise_textLt_insertionSort (nodup_firstSeen _)
    · rw [(List.perm_insertionSort _ _).mem_iff, mem_firstSeen, List.mem_map]
      simp only [mem_exactMatches]
  next heq =>
    have hnone : ∀ id, ¬ Carried (Named T arrival.identifiers recorded) id := by
      intro id hid
      rw [← hcarried, heq] at hid
      exact List.not_mem_nil hid
    have hrows := fun row => @mem_agreeing T arrival deductions tolerance hdays row
    have hnodup := @nodup_agreeing T arrival deductions tolerance hids
    have hlisted : ∀ id, id ∈ (agreeing T arrival deductions tolerance).map (·.1) ↔
        ∃ candidate, Agreed T 100 tolerance.toNat arrival deductions candidate ∧ candidate.deductionId = id := by
      intro id
      simp only [List.mem_map, hrows]
      constructor
      · rintro ⟨row, ⟨candidate, hagreed, rfl⟩, rfl⟩
        exact ⟨candidate, hagreed, rfl⟩
      · rintro ⟨candidate, hagreed, rfl⟩
        exact ⟨_, ⟨candidate, hagreed, rfl⟩, rfl⟩
    have hfold : (deductions.filterMap fun candidate =>
        (probableBasis T arrival candidate tolerance).map fun basis => (candidate.deductionId, basis)) =
        agreeing T arrival deductions tolerance := rfl
    rw [hfold] at h
    split at h
    next hrow =>
      obtain rfl := Except.ok.inj h
      refine .none hnone fun candidate hagreed => ?_
      have hmem := (hrows _).2 ⟨candidate, hagreed, rfl⟩
      rw [hrow] at hmem
      exact List.not_mem_nil hmem
    next id basis hrow =>
      obtain rfl := Except.ok.inj h
      obtain ⟨candidate, hagreed, hsame⟩ := (hrows (id, basis)).1 (hrow ▸ List.mem_singleton_self _)
      obtain ⟨rfl, rfl⟩ := Prod.mk.inj hsame
      refine .probable hnone hagreed fun other hother => ?_
      have hmem := (hrows _).2 ⟨other, hother, rfl⟩
      rw [hrow, List.mem_singleton] at hmem
      exact List.inj_on_of_nodup_map hids hother.1 hagreed.1 (congrArg Prod.fst hmem)
    next several hnotnil hnotone =>
      obtain rfl := Except.ok.inj h
      have hlength : 2 ≤ (agreeing T arrival deductions tolerance).length := by
        rcases hrow : agreeing T arrival deductions tolerance with - | ⟨row, - | ⟨row', rest⟩⟩
        · exact absurd hrow hnotnil
        · exact absurd hrow (hnotone row.1 row.2)
        · exact Nat.le_add_left 2 _
      rw [basis_agreeing hdays]
      exact .agreed hnone (by rw [List.length_insertionSort, List.length_map]; exact hlength)
        (isSortedSet_insertionSort hnodup hlisted)

/-- **Resolution is exact and order free.** The answer is what the two sets say, and the same for every order and
repetition of the identifiers and every order of the deductions. -/
theorem resolveIdentity_exact_order_free {recorded : List KnownIdentifier} {deductions : List KnownDeduction}
    {days : Option Int} (hdays : 0 ≤ days.getD DEFAULT_DATE_TOLERANCE_DAYS)
    (hids : (deductions.map (·.deductionId)).Nodup) :
    ∃ r, resolveIdentity T arrival recorded deductions days = .ok r ∧
      Answers (Named T arrival.identifiers recorded)
        (Agreed T 100 (days.getD DEFAULT_DATE_TOLERANCE_DAYS).toNat arrival deductions) (factsOf arrival) r ∧
      ∀ identifiers' recorded' deductions', (∀ a, a ∈ identifiers' ↔ a ∈ arrival.identifiers) →
        (∀ k, k ∈ recorded' ↔ k ∈ recorded) → deductions'.Perm deductions →
        ∃ r', resolveIdentity T { arrival with identifiers := identifiers' } recorded' deductions' days = .ok r' ∧
          r'.kind = r.kind ∧ r'.ids = r.ids ∧ r'.basis = r.basis := by
  obtain ⟨r, hr⟩ := @resolveIdentity_ok T arrival recorded deductions days hdays
  have hanswers := resolveIdentity_answers hdays hids hr
  refine ⟨r, hr, hanswers, fun identifiers' recorded' deductions' hidentifiers hrecorded hperm => ?_⟩
  obtain ⟨r', hr'⟩ := @resolveIdentity_ok T { arrival with identifiers := identifiers' } recorded' deductions' days hdays
  have hanswers' := resolveIdentity_answers hdays ((hperm.map (·.deductionId)).nodup_iff.2 hids) hr'
  have hnamed : Named T identifiers' recorded' = Named T arrival.identifiers recorded := by
    funext known
    unfold Named
    simp only [hidentifiers, hrecorded]
  have hfacts : ∀ candidate, SameFacts T 100 (days.getD DEFAULT_DATE_TOLERANCE_DAYS).toNat
      { arrival with identifiers := identifiers' } candidate ↔
      SameFacts T 100 (days.getD DEFAULT_DATE_TOLERANCE_DAYS).toNat arrival candidate := fun candidate =>
    ⟨fun h => ⟨h.invoice, h.amount, h.date, h.debtor⟩, fun h => ⟨h.invoice, h.amount, h.date, h.debtor⟩⟩
  have hagreed : Agreed T 100 (days.getD DEFAULT_DATE_TOLERANCE_DAYS).toNat
      { arrival with identifiers := identifiers' } deductions' =
      Agreed T 100 (days.getD DEFAULT_DATE_TOLERANCE_DAYS).toNat arrival deductions := by
    funext candidate
    unfold Agreed
    rw [hperm.mem_iff, hfacts]
  rw [hnamed, hagreed] at hanswers'
  exact ⟨r', hr', answers_unique hanswers' hanswers⟩

end

/-- An arrival and a deduction that agree on one invoice, one amount and one day. -/
def sameDay (day : Text) : ArrivalIdentity × KnownDeduction :=
  (⟨[], some ZERO, some "INV-1".toList, some day, none⟩, ⟨7, ZERO, some "inv-1".toList, some day, none⟩)

/-- An arrival of a leap day that carries an invoice's number and a claim's. -/
def leapDay : ArrivalIdentity :=
  { (sameDay "2024-02-29".toList).1 with
    identifiers := [⟨.invoice_number, "INV-1".toList⟩, ⟨.claim_id, "cb 2".toList⟩] }

def leapDayRecorded : List KnownIdentifier :=
  [⟨9, "notice".toList, .claim_id, "CB 2".toList⟩, ⟨8, "notice".toList, .claim_id, "CB 3".toList⟩,
    ⟨7, "ledger".toList, .invoice_number, "inv-1".toList⟩]

/-- The first agrees with the arrival, the second is a day too late. -/
def leapDayDeductions : List KnownDeduction :=
  [(sameDay "2024-03-07".toList).2, { (sameDay "2024-03-08".toList).2 with deductionId := 8 }]

/-- What it carries names two cases; were nothing recorded, its facts would agree with one. -/
theorem resolveIdentity_leapDay :
    (∃ r, resolveIdentity asciiCase leapDay leapDayRecorded leapDayDeductions none = .ok r ∧
      Answers (Named asciiCase leapDay.identifiers leapDayRecorded) (Agreed asciiCase 100 7 leapDay leapDayDeductions)
        (factsOf leapDay) r ∧ r.kind = .ambiguous ∧ r.ids = [7, 9] ∧
      ∃ r', resolveIdentity asciiCase { leapDay with identifiers := leapDay.identifiers.reverse } leapDayRecorded.reverse
          leapDayDeductions.reverse none = .ok r' ∧ r'.kind = .ambiguous ∧ r'.ids = [7, 9]) ∧
    ∃ r, resolveIdentity asciiCase leapDay [] leapDayDeductions none = .ok r ∧
      Answers (Named asciiCase leapDay.identifiers []) (Agreed asciiCase 100 7 leapDay leapDayDeductions)
        (factsOf leapDay) r ∧ r.kind = .probable ∧ r.ids = [7] := by
  constructor
  · obtain ⟨r, hr, hanswers, hfree⟩ := @resolveIdentity_exact_order_free asciiCase leapDay leapDayRecorded
      leapDayDeductions none (by decide) (by decide)
    have hnamed : resolveIdentity asciiCase leapDay leapDayRecorded leapDayDeductions none =
        .ok (.ambiguous [7, 9] ["claim_id".toList, "invoice_number".toList]) := by decide +kernel
    obtain ⟨r', hr', hkind, hids, -⟩ := hfree leapDay.identifiers.reverse leapDayRecorded.reverse
      leapDayDeductions.reverse (fun _ => List.mem_reverse) (fun _ => List.mem_reverse) (List.reverse_perm _)
    obtain rfl := Except.ok.inj (hnamed.symm.trans hr)
    exact ⟨_, hr, hanswers, rfl, rfl, r', hr', hkind, hids⟩
  · obtain ⟨r, hr, hanswers, -⟩ := @resolveIdentity_exact_order_free asciiCase leapDay [] leapDayDeductions none
      (by decide) (by decide)
    have hprobable : resolveIdentity asciiCase leapDay [] leapDayDeductions none =
        .ok (.probable 7 (PROBABLE_BASIS_ORDER.take 3)) := by decide +kernel
    obtain rfl := Except.ok.inj (hprobable.symm.trans hr)
    exact ⟨_, hr, hanswers, rfl, rfl⟩

/-- Two deductions of the year 50 agree on all, and nothing is answered. -/
theorem year_fifty_agrees_unseen :
    ¬ ∀ (arrival : ArrivalIdentity) (recorded : List KnownIdentifier) (deductions : List KnownDeduction)
      (days : Option Int), 0 ≤ days.getD DEFAULT_DATE_TOLERANCE_DAYS → (deductions.map (·.deductionId)).Nodup →
      ∃ r, resolveIdentity asciiCase arrival recorded deductions days = .ok r ∧
        Answers (Named asciiCase arrival.identifiers recorded)
          (Agreed asciiCase 0 (days.getD DEFAULT_DATE_TOLERANCE_DAYS).toNat arrival deductions) (factsOf arrival) r := by
  intro hall
  obtain ⟨r, hr, hanswers⟩ := hall (sameDay "0050-01-01".toList).1 [] [(sameDay "0050-01-01".toList).2] none (by decide)
    (by decide)
  have hnone : resolveIdentity asciiCase (sameDay "0050-01-01".toList).1 [] [(sameDay "0050-01-01".toList).2] none =
      .ok .none := by decide +kernel
  obtain rfl := Except.ok.inj (hnone.symm.trans hr)
  let newYear : CalendarDay := ⟨50, 1, 1, by decide, by decide, by decide, by decide⟩
  have hiso : "0050-01-01".toList = newYear.iso := by decide +kernel
  cases hanswers with
  | none _ hagreed =>
    refine hagreed _ ⟨List.mem_singleton_self _, ⟨⟨_, _, rfl, rfl, by decide +kernel, by decide +kernel⟩, rfl,
      ⟨newYear, newYear, congrArg some hiso, congrArg some hiso, ?_, ?_, 0, Nat.zero_le _, .inl rfl⟩, fun _ _ h => ?_⟩⟩
    · exact ⟨by decide, by decide⟩
    · exact ⟨by decide, by decide⟩
    · cases h

end Recouple
