import Recouple.Pipeline.BoardSums

/-!
# The board conserves its rows

`foldRetailerBoard_ok` says what the board accepts and what it answers: one group for each key, made by `groupOf` of
the rows of that key. `board_conserves_rows` reads off it where each row went, what the figures are, and what the order
of the rows can change.

-/

namespace Recouple.Pipeline.Board
open Js KeyedFold SortByKey

/-! ## The key of a row -/

section
variable {T : CaseTables} {nfkd : Text → Text} {C : Type} {a b : RawPayerGroup C}

/-- Two rows of one payer: one debtor, one name as it folds, or, where nothing is left of it, one name as printed; or no
name at all. -/
def OnePayer (T : CaseTables) (nfkd : Text → Text) (a b : RawPayerGroup C) : Prop :=
  (∃ d d', a.debtor = some d ∧ b.debtor = some d' ∧ d.id = d'.id) ∨
  (a.debtor = none ∧ b.debtor = none ∧
    (a.printedName = none ∧ b.printedName = none ∨
      ∃ p q, a.printedName = some p ∧ b.printedName = some q ∧ retailerMatchKey T nfkd p = retailerMatchKey T nfkd q ∧
        (retailerMatchKey T nfkd p = [] → p = q)))

/-- The four forms of a key are told apart by their text. -/
theorem groupKey_inj : (groupKey T nfkd a).2 = (groupKey T nfkd b).2 ↔ OnePayer T nfkd a b := by
  unfold groupKey OnePayer
  rcases hda : a.debtor with _ | d <;> rcases hdb : b.debtor with _ | d'
  · rcases hpa : a.printedName with _ | p <;> rcases hpb : b.printedName with _ | q
    · simp
    · by_cases hq : retailerMatchKey T nfkd q = [] <;> simp [hq]
    · by_cases hp : retailerMatchKey T nfkd p = [] <;> simp [hp]
    · by_cases hp : retailerMatchKey T nfkd p = [] <;> by_cases hq : retailerMatchKey T nfkd q = []
      · simp [hp, hq]
      · simp [hp, hq, Ne.symm hq]
      · simp [hp, hq]
      · simp [hp, hq]
  · rcases hpa : a.printedName with _ | p
    · simp
    · by_cases hp : retailerMatchKey T nfkd p = [] <;> simp [hp]
  · rcases hpb : b.printedName with _ | q
    · simp
    · by_cases hq : retailerMatchKey T nfkd q = [] <;> simp [hq]
  · simp

theorem groupKey_kind (h : (groupKey T nfkd a).2 = (groupKey T nfkd b).2) :
    (groupKey T nfkd a).1 = (groupKey T nfkd b).1 := by
  rw [groupKey_inj] at h
  unfold groupKey
  rcases h with ⟨d, d', ha, hb, -⟩ | ⟨ha, hb, ⟨hpa, hpb⟩ | ⟨p, q, hpa, hpb, -⟩⟩
  · rw [ha, hb]
  · rw [ha, hb, hpa, hpb]
  · rw [ha, hb, hpa, hpb]

theorem groupKey_eq_iff : groupKey T nfkd a = groupKey T nfkd b ↔ OnePayer T nfkd a b := by
  rw [← groupKey_inj]
  exact ⟨congrArg Prod.snd, fun h => Prod.ext (groupKey_kind h) h⟩

/-- An unmatched row has a printed name and no debtor. -/
theorem unmatched_iff : (groupKey T nfkd a).1 = .unmatched ↔ a.debtor = none ∧ ∃ p, a.printedName = some p := by
  unfold groupKey
  rcases a.debtor with _ | d <;> rcases a.printedName with _ | p <;> simp

end

/-! ## The loop over the rows -/

section
variable {T : CaseTables} {nfkd : Text → Text} {C : Type} {rows rows' : List (RawPayerGroup C)}

/-- No second row for a debtor or for no name at all. -/
def OneRowEach (T : CaseTables) (nfkd : Text → Text) (rows : List (RawPayerGroup C)) : Prop :=
  rows.Pairwise fun a b => OnePayer T nfkd a b → (groupKey T nfkd b).1 = .unmatched

theorem OneRowEach.perm (h : OneRowEach T nfkd rows) (hp : rows.Perm rows') : OneRowEach T nfkd rows' :=
  (hp.pairwise_iff fun {a b} hab hba => by
    rw [← groupKey_eq_iff] at hba hab
    rw [← hba]
    exact hab hba.symm).1 h

theorem gather_ok {row : RawPayerGroup C} {out : List ((PayerGroupKind × Text) × List (RawPayerGroup C))} :
    gather T nfkd (Groups.groupBy (groupKey T nfkd) rows) row = .ok out ↔
      (∀ a ∈ rows, OnePayer T nfkd a row → (groupKey T nfkd row).1 = .unmatched) ∧
      out = Groups.groupBy (groupKey T nfkd) (rows ++ [row]) := by
  have hmem : (groupKey T nfkd row).2 ∈ (Groups.groupBy (groupKey T nfkd) rows).map (·.1.2) ↔
      ∃ a ∈ rows, OnePayer T nfkd a row := by
    rw [show (Groups.groupBy (groupKey T nfkd) rows).map (·.1.2) =
      ((Groups.groupBy (groupKey T nfkd) rows).map Prod.fst).map Prod.snd from (List.map_map ..).symm, List.mem_map]
    constructor
    · rintro ⟨k, hk, hkey⟩
      obtain ⟨a, ha, rfl⟩ := (Groups.mem_keys _).1 hk
      exact ⟨a, ha, groupKey_inj.1 hkey⟩
    · rintro ⟨a, ha, hsame⟩
      exact ⟨_, (Groups.mem_keys _).2 ⟨a, ha, rfl⟩, groupKey_inj.2 hsame⟩
  unfold gather
  dsimp only
  rw [Groups.groupBy_concat]
  split
  · rename_i h
    rw [hmem] at h
    obtain ⟨⟨a, ha, hsame⟩, hkind⟩ := h
    constructor
    · intro hout
      cases hout
    · intro hout
      exact absurd (hout.1 a ha hsame) hkind
  · rename_i h
    rw [hmem] at h
    rw [Except.ok.injEq, eq_comm]
    refine (and_iff_right fun a ha hsame => ?_).symm
    by_contra hkind
    exact h ⟨⟨a, ha, hsame⟩, hkind⟩

/-- The loop gathers the rows by their key. -/
theorem foldlM_gather_ok {out : List ((PayerGroupKind × Text) × List (RawPayerGroup C))} :
    rows.foldlM (gather T nfkd) [] = .ok out ↔
      OneRowEach T nfkd rows ∧ out = Groups.groupBy (groupKey T nfkd) rows := by
  induction rows using List.reverseRecOn generalizing out with
  | nil =>
    show Except.ok [] = Except.ok out ↔ _
    rw [Except.ok.injEq, eq_comm]
    exact (and_iff_right List.Pairwise.nil).symm
  | append_singleton rows row ih =>
    rw [List.foldlM_append, bind_ok]
    unfold OneRowEach at ih ⊢
    rw [List.pairwise_append]
    constructor
    · rintro ⟨mid, hmid, hrow⟩
      obtain ⟨hone, rfl⟩ := ih.1 hmid
      rw [List.foldlM_cons, bind_ok] at hrow
      obtain ⟨last, hlast, hout⟩ := hrow
      cases hout
      obtain ⟨hnew, rfl⟩ := gather_ok.1 hlast
      exact ⟨⟨hone, List.pairwise_singleton _ _, fun a ha b hb => List.mem_singleton.1 hb ▸ hnew a ha⟩, rfl⟩
    · rintro ⟨⟨hone, -, hnew⟩, rfl⟩
      refine ⟨_, ih.2 ⟨hone, rfl⟩, ?_⟩
      rw [List.foldlM_cons, bind_ok]
      exact ⟨_, gather_ok.2 ⟨fun a ha => hnew a ha row (List.mem_singleton.2 rfl), rfl⟩, rfl⟩

/-! ## One group -/

variable (T nfkd) in
/-- The rows of a key. -/
abbrev members (rows : List (RawPayerGroup C)) (k : PayerGroupKind × Text) : List (RawPayerGroup C) :=
  GroupedSums.rowsOf (groupKey T nfkd) rows k

/-- The group that a key's rows make. -/
def groupOf (limit : Nat) (group : (PayerGroupKind × Text) × List (RawPayerGroup C)) : PayerGroup C :=
  let first := (spellings group.2).head?
  let cases := ((placed group.2).take limit).map (·.value)
  { kind := group.1.1
    key := group.1.2
    name := first.bind nameOf
    debtorId := first.bind fun row => row.debtor.map (·.id)
    printedNames := if group.1.1 = .unmatched then (spellings group.2).map fun row => row.printedName.getD [] else []
    totals := sumTotals (group.2.map (·.totals))
    cases
    moreCases := max 0 ((sumTotals (group.2.map (·.totals))).listableCases - cases.length) }

/-- What the sums over a group's rows need. -/
def Adds (members : List (RawPayerGroup C)) : Prop :=
  (∀ row ∈ members.map (·.totals), Counted row) ∧ Summable (members.map (·.totals))

theorem payerGroup_ok {limit : Nat} (group : (PayerGroupKind × Text) × List (RawPayerGroup C)) (g : PayerGroup C) :
    payerGroup limit group = .ok g ↔ Adds group.2 ∧ g = groupOf limit group := by
  unfold payerGroup
  simp only [bind_ok, addTotals_ok]
  constructor
  · rintro ⟨t, ⟨hadds, rfl⟩, hg⟩
    cases hg
    exact ⟨hadds, rfl⟩
  · rintro ⟨hadds, rfl⟩
    exact ⟨_, ⟨hadds, rfl⟩, rfl⟩

theorem groupBy_eq_map (rows : List (RawPayerGroup C)) : Groups.groupBy (groupKey T nfkd) rows =
    ((Groups.groupBy (groupKey T nfkd) rows).map Prod.fst).map fun k => (k, members T nfkd rows k) := by
  rw [List.map_map]
  conv_lhs => rw [← List.map_id (Groups.groupBy (groupKey T nfkd) rows)]
  exact List.map_congr_left fun group hgroup => Prod.ext rfl ((Groups.mem_groupBy _).1 hgroup).2

variable (T nfkd) in
/-- The keys of the rows, in the order they first occur. -/
def keysOf (rows : List (RawPayerGroup C)) : List (PayerGroupKind × Text) :=
  (Groups.groupBy (groupKey T nfkd) rows).map Prod.fst

theorem nodup_keysOf : (keysOf T nfkd rows).Nodup := Groups.nodup_keys _ rows

theorem mem_keysOf {k : PayerGroupKind × Text} : k ∈ keysOf T nfkd rows ↔ ∃ row ∈ rows, groupKey T nfkd row = k :=
  Groups.mem_keys _

theorem keysOf_perm (hp : rows.Perm rows') : (keysOf T nfkd rows).Perm (keysOf T nfkd rows') :=
  (List.perm_ext_iff_of_nodup nodup_keysOf nodup_keysOf).2 fun k => by
    rw [mem_keysOf, mem_keysOf]
    simp only [hp.mem_iff]

variable (T nfkd) in
def groupsOf (limit : Nat) (rows : List (RawPayerGroup C)) : List (PayerGroup C) :=
  (keysOf T nfkd rows).map fun k => groupOf limit (k, members T nfkd rows k)

/-- **What the board accepts, and what it then answers.** -/
theorem foldRetailerBoard_ok {casesPerGroup : Int} {groups : List (PayerGroup C)} :
    foldRetailerBoard T nfkd rows casesPerGroup = .ok groups ↔
      0 ≤ casesPerGroup ∧ OneRowEach T nfkd rows ∧ (∀ k ∈ keysOf T nfkd rows, Adds (members T nfkd rows k)) ∧
      groups = (groupsOf T nfkd casesPerGroup.toNat rows).insertionSort fun a b => byShown a b ≤ 0 := by
  unfold foldRetailerBoard
  rw [throw_if_ok, not_lt, bind_ok]
  refine and_congr_right fun _ => ?_
  have hmap : ∀ out : List (PayerGroup C),
      (Groups.groupBy (groupKey T nfkd) rows).mapM (payerGroup casesPerGroup.toNat) = .ok out ↔
        (∀ k ∈ keysOf T nfkd rows, Adds (members T nfkd rows k)) ∧ out = groupsOf T nfkd casesPerGroup.toNat rows := by
    intro out
    rw [mapM_ok_iff payerGroup_ok, groupBy_eq_map, List.forall_mem_map, List.map_map]
    rfl
  constructor
  · rintro ⟨gathered, hgathered, hgroups⟩
    obtain ⟨hone, rfl⟩ := foldlM_gather_ok.1 hgathered
    obtain ⟨out, hout, hsorted⟩ := bind_ok.1 hgroups
    obtain ⟨hadds, rfl⟩ := (hmap out).1 hout
    cases hsorted
    exact ⟨hone, hadds, rfl⟩
  · rintro ⟨hone, hadds, rfl⟩
    exact ⟨_, foldlM_gather_ok.2 ⟨hone, rfl⟩, bind_ok.2 ⟨_, (hmap _).2 ⟨hadds, rfl⟩, rfl⟩⟩

end

/-! ## The order of the rows -/

section
variable {C : Type}

theorem bySpelling_compares (a b : RawPayerGroup C) : Compares (bySpelling a b)
    (toLex (OrderDual.toDual a.caseCount, codeUnits (a.printedName.getD [])))
    (toLex (OrderDual.toDual b.caseCount, codeUnits (b.printedName.getD []))) :=
  (compares_sub_dual _ _).orElse (Books.compareText_compares _ _)

theorem byPosition_iff (a b : PlacedCase C) : a.position - b.position ≤ 0 ↔ a.position ≤ b.position :=
  (compares_sub _ _).le

theorem byShown_compares (a b : PayerGroup C) : Compares (byShown a b)
    (toLex (KIND_ORDER a.kind, toLex (OrderDual.toDual a.totals.inDisputeCents,
      toLex (codeUnits (a.name.getD []), codeUnits a.key))))
    (toLex (KIND_ORDER b.kind, toLex (OrderDual.toDual b.totals.inDisputeCents,
      toLex (codeUnits (b.name.getD []), codeUnits b.key)))) :=
  (compares_sub _ _).orElse ((compares_sub_dual _ _).orElse
    ((Books.compareText_compares _ _).orElse (Books.compareText_compares _ _)))

/-- The board shows its groups in one order. -/
theorem shown_congr {groups groups' : List (PayerGroup C)} (hp : groups.Perm groups')
    (hkeys : (groups.map (·.key)).Nodup) :
    (groups.insertionSort fun a b => byShown a b ≤ 0) = groups'.insertionSort fun a b => byShown a b ≤ 0 := by
  refine insertionSort_congr_of_apart (fun a b => (byShown_compares a b).le) hp fun a ha b hb hkey => ?_
  have hinner := congrArg Prod.snd (toLex_inj.1 (congrArg Prod.snd (toLex_inj.1 hkey)))
  have hunits : codeUnits a.key = codeUnits b.key := congrArg Prod.snd (toLex_inj.1 hinner)
  exact List.inj_on_of_nodup_map hkeys ha hb (codeUnits_injective hunits)

/-- The cases are the lowest-placed ones, up to the limit, in order of their place. -/
def LowestFirst (limit : Nat) (all : List (PlacedCase C)) (cases : List C) : Prop :=
  ∃ listed left, all.Perm (listed ++ left) ∧ cases = listed.map (·.value) ∧ listed.length = min limit all.length ∧
    (listed.map (·.position)).Pairwise (· < ·) ∧ ∀ a ∈ listed, ∀ b ∈ left, a.position < b.position

theorem placed_lowestFirst {limit : Nat} {rows : List (RawPayerGroup C)}
    (hpos : ((rows.flatMap (·.cases)).map (·.position)).Nodup) :
    LowestFirst limit (rows.flatMap (·.cases)) (((placed rows).take limit).map (·.value)) := by
  have hperm : (placed rows).Perm (rows.flatMap (·.cases)) := List.perm_insertionSort _ _
  have hlt : ((placed rows).map (·.position)).Pairwise (· < ·) := pairwise_lt_insertionSort byPosition_iff hpos
  have hsplit : (placed rows).take limit ++ (placed rows).drop limit = placed rows := List.take_append_drop ..
  rw [← hsplit, List.map_append, List.pairwise_append] at hlt
  refine ⟨(placed rows).take limit, (placed rows).drop limit, ?_, rfl, ?_, hlt.1, fun a ha b hb => ?_⟩
  · rw [hsplit]
    exact hperm.symm
  · rw [List.length_take, hperm.length_eq]
  · exact hlt.2.2 _ (List.mem_map_of_mem ha) _ (List.mem_map_of_mem hb)

end

section
variable {T : CaseTables} {nfkd : Text → Text} {C : Type} {rows rows' : List (RawPayerGroup C)}
  {k : PayerGroupKind × Text}

theorem nodup_positions (hpos : ((rows.flatMap (·.cases)).map (·.position)).Nodup) :
    (((members T nfkd rows k).flatMap (·.cases)).map (·.position)).Nodup :=
  hpos.sublist ((List.filter_sublist.flatMap _).map _)

/-- A debtor, and the payer with no name, have one row. -/
theorem members_single (hone : OneRowEach T nfkd rows) (hk : k ∈ keysOf T nfkd rows) (hkind : k.1 ≠ .unmatched) :
    ∃ row, members T nfkd rows k = [row] := by
  obtain ⟨row, hrow, hkey⟩ := mem_keysOf.1 hk
  have hmem : row ∈ members T nfkd rows k := GroupedSums.mem_rowsOf.2 ⟨hrow, hkey⟩
  have hpair : (members T nfkd rows k).Pairwise fun a b => OnePayer T nfkd a b → (groupKey T nfkd b).1 = .unmatched :=
    hone.sublist List.filter_sublist
  have hkeys : ∀ a ∈ members T nfkd rows k, groupKey T nfkd a = k := fun a ha => (GroupedSums.mem_rowsOf.1 ha).2
  match hms : members T nfkd rows k with
  | [] => rw [hms] at hmem; exact absurd hmem List.not_mem_nil
  | [a] => exact ⟨a, rfl⟩
  | a :: b :: rest =>
    rw [hms] at hpair hkeys
    have ha : groupKey T nfkd a = k := hkeys a (by simp)
    have hb : groupKey T nfkd b = k := hkeys b (by simp)
    have hb' : b ∈ b :: rest := List.mem_cons_self
    have hunmatched := List.rel_of_pairwise_cons hpair hb' (groupKey_eq_iff.1 (ha.trans hb.symm))
    exact absurd (hb ▸ hunmatched) hkind

/-- **A group does not depend on the order of its rows.** -/
theorem groupOf_congr {limit : Nat} (hone : OneRowEach T nfkd rows)
    (hpos : ((rows.flatMap (·.cases)).map (·.position)).Nodup) (hp : rows.Perm rows') (hk : k ∈ keysOf T nfkd rows) :
    groupOf limit (k, members T nfkd rows k) = groupOf limit (k, members T nfkd rows' k) := by
  have hms : (members T nfkd rows k).Perm (members T nfkd rows' k) := hp.filter _
  by_cases hkind : k.1 = .unmatched
  · have hmember : ∀ a ∈ members T nfkd rows k, a.debtor = none ∧ ∃ p, a.printedName = some p := fun a ha =>
      unmatched_iff.1 ((congrArg Prod.fst (GroupedSums.mem_rowsOf.1 ha).2).trans hkind)
    have hmap : ∀ {β : Type} (f : RawPayerGroup C → β),
        (∀ a b, a.debtor = b.debtor → a.printedName = b.printedName → f a = f b) →
        (spellings (members T nfkd rows k)).map f = (spellings (members T nfkd rows' k)).map f := by
      intro β f hf
      refine map_insertionSort_congr (fun a b => (bySpelling_compares a b).le) hms fun a ha b hb hkey => ?_
      obtain ⟨hda, p, hpa⟩ := hmember a ha
      obtain ⟨hdb, q, hpb⟩ := hmember b hb
      have hunits := codeUnits_injective (congrArg Prod.snd (toLex_inj.1 hkey))
      rw [hpa, hpb] at hunits
      exact hf a b (hda.trans hdb.symm) (hpa.trans (congrArg some (show p = q from hunits) |>.trans hpb.symm))
    have hhead : ∀ {β : Type} (f : RawPayerGroup C → Option β),
        (∀ a b, a.debtor = b.debtor → a.printedName = b.printedName → f a = f b) →
        (spellings (members T nfkd rows k)).head?.bind f = (spellings (members T nfkd rows' k)).head?.bind f := by
      intro β f hf
      have hjoin : ∀ l : List (RawPayerGroup C), l.head?.bind f = (l.map f).head?.join := fun l => by
        cases l <;> rfl
      rw [hjoin, hjoin, hmap f hf]
    have hplaced : placed (members T nfkd rows k) = placed (members T nfkd rows' k) :=
      insertionSort_congr byPosition_iff (hms.flatMap_right _) (nodup_positions hpos)
    unfold groupOf
    dsimp only
    rw [hhead nameOf (fun a b hd hn => by rw [nameOf, nameOf, hd, hn]),
      hhead (fun row => row.debtor.map (·.id)) (fun a b hd _ => by rw [hd]),
      hmap (fun row => row.printedName.getD []) (fun a b _ hn => by rw [hn]), hplaced, sumTotals_perm (hms.map _)]
  · obtain ⟨row, hrow⟩ := members_single hone hk hkind
    rw [hrow] at hms
    rw [hrow, List.singleton_perm.1 hms]

end

/-! ## The board -/

section
variable {T : CaseTables} {nfkd : Text → Text} {C : Type} {rows rows' : List (RawPayerGroup C)} {limit : Nat}

theorem sumTotals_field {f : PayerTotals → Int} (hf : f ∈ countFields) (rows : List PayerTotals) :
    f (sumTotals rows) = (rows.map f).sum := by
  simp only [countFields, List.mem_cons, List.not_mem_nil, or_false] at hf
  rcases hf with rfl | rfl | rfl | rfl | rfl | rfl | rfl <;> rfl

theorem counted_sumTotals {rows : List (RawPayerGroup C)} (h : Adds rows) :
    Counted (sumTotals (rows.map (·.totals))) := by
  refine ⟨fun days hdays => ?_, fun f hf => ?_⟩
  · obtain ⟨row, hrow, hage⟩ := List.mem_filterMap.1 (List.max?_eq_some_iff.1 hdays).1
    exact (h.1 row hrow).age days hage
  · have hnonneg : 0 ≤ ((rows.map (·.totals)).map f).sum := List.sum_nonneg fun v hv => by
      obtain ⟨row, hrow, rfl⟩ := List.mem_map.1 hv
      exact ((h.1 row hrow).counts f hf).2
    rw [sumTotals_field hf]
    exact ⟨⟨(by decide : -maxSafe ≤ 0).trans hnonneg, h.2.counts f hf⟩, hnonneg⟩

theorem nodup_keys_groupsOf : ((groupsOf T nfkd limit rows).map (·.key)).Nodup := by
  rw [groupsOf, List.map_map]
  refine nodup_keysOf.map_on fun k hk k' hk' hkey => ?_
  obtain ⟨a, -, rfl⟩ := mem_keysOf.1 hk
  obtain ⟨b, -, rfl⟩ := mem_keysOf.1 hk'
  exact groupKey_eq_iff.2 (groupKey_inj.1 hkey)

theorem groupsOf_perm (hone : OneRowEach T nfkd rows) (hpos : ((rows.flatMap (·.cases)).map (·.position)).Nodup)
    (hp : rows.Perm rows') : (groupsOf T nfkd limit rows).Perm (groupsOf T nfkd limit rows') := by
  have hsame : groupsOf T nfkd limit rows =
      (keysOf T nfkd rows).map fun k => groupOf limit (k, members T nfkd rows' k) :=
    List.map_congr_left fun k hk => groupOf_congr hone hpos hp hk
  rw [hsame]
  exact (keysOf_perm hp).map _

theorem sumTotals_groupsOf :
    sumTotals ((groupsOf T nfkd limit rows).map (·.totals)) = sumTotals (rows.map (·.totals)) := by
  rw [groupsOf, List.map_map]
  exact sumTotals_groups nodup_keysOf fun r hr => mem_keysOf.2 ⟨r, hr, rfl⟩

/-- The figures over the groups are those over the rows, unless they leave the safe range. -/
theorem retailerBoardTotals_groups {groups : List (PayerGroup C)}
    (hadds : ∀ k ∈ keysOf T nfkd rows, Adds (members T nfkd rows k)) (hp : groups.Perm (groupsOf T nfkd limit rows)) :
    retailerBoardTotals groups = .ok (sumTotals (rows.map (·.totals))) ∨
      retailerBoardTotals groups = .error .countOverflowed ∨
      ∃ v, retailerBoardTotals groups = .error (.money (.outOfRange v)) := by
  have hcounted : ∀ t ∈ groups.map (·.totals), Counted t := fun t ht => by
    obtain ⟨g, hg, rfl⟩ := List.mem_map.1 ht
    obtain ⟨k, hk, rfl⟩ := List.mem_map.1 (hp.mem_iff.1 hg)
    exact counted_sumTotals (hadds k hk)
  unfold retailerBoardTotals
  cases h : addTotals (groups.map (·.totals)) with
  | ok t =>
    rw [(addTotals_ok.1 h).2, sumTotals_perm (hp.map _), sumTotals_groupsOf]
    exact .inl rfl
  | error e =>
    rcases addTotals_error hcounted h with ⟨rfl, -⟩ | ⟨v, rfl⟩
    · exact .inr (.inl rfl)
    · exact .inr (.inr ⟨v, rfl⟩)

/-- Rows in another order are folded to the same board, or a running sum of money leaves the safe range. -/
theorem foldRetailerBoard_perm {casesPerGroup : Int} {groups : List (PayerGroup C)}
    (hpos : ((rows.flatMap (·.cases)).map (·.position)).Nodup)
    (h : foldRetailerBoard T nfkd rows casesPerGroup = .ok groups) (hp : rows.Perm rows') :
    foldRetailerBoard T nfkd rows' casesPerGroup = .ok groups ∨
      ∃ v, foldRetailerBoard T nfkd rows' casesPerGroup = .error (.money (.outOfRange v)) := by
  obtain ⟨hlimit, hone, hadds, rfl⟩ := foldRetailerBoard_ok.1 h
  cases h' : foldRetailerBoard T nfkd rows' casesPerGroup with
  | ok groups' =>
    obtain ⟨-, -, -, rfl⟩ := foldRetailerBoard_ok.1 h'
    rw [shown_congr (groupsOf_perm hone hpos hp) nodup_keys_groupsOf]
    exact .inl rfl
  | error e =>
    right
    unfold foldRetailerBoard at h'
    rw [if_neg (not_lt.2 hlimit), foldlM_gather_ok.2 ⟨hone.perm hp, rfl⟩] at h'
    rcases bind_error h' with hbad | ⟨_, hgathered, h'⟩
    · cases hbad
    cases hgathered
    rcases bind_error h' with hbad | ⟨out, -, hbad⟩
    · obtain ⟨group, hgroup, hbad⟩ := mapM_error hbad
      obtain ⟨hne, hms⟩ := (Groups.mem_groupBy _).1 hgroup
      have hperm : (members T nfkd rows group.1).Perm group.2 := by
        rw [hms]
        exact hp.filter _
      obtain ⟨row, hrow⟩ := List.exists_mem_of_ne_nil _ hne
      obtain ⟨hrow, hkey⟩ := GroupedSums.mem_rowsOf.1 (hperm.mem_iff.2 hrow)
      obtain ⟨hcounted, hsums⟩ := hadds group.1 (mem_keysOf.2 ⟨row, hrow, hkey⟩)
      have hcounted' : ∀ t ∈ group.2.map (·.totals), Counted t := fun t ht => hcounted t ((hperm.map _).mem_iff.2 ht)
      rcases bind_error hbad with hbad | ⟨t, -, hbad⟩
      · rcases addTotals_error hcounted' hbad with ⟨-, f, hf, hsum⟩ | ⟨v, rfl⟩
        · rw [← ((hperm.map (·.totals)).map f).sum_eq] at hsum
          exact absurd (hsums.counts f hf) (not_le.2 hsum)
        · exact ⟨v, rfl⟩
      · cases hbad
    · cases hbad

/-- The running sums of amounts that are not negative stay below the whole. -/
theorem inRange_runs {values values' : List Int} (hnonneg : ∀ v ∈ values, 0 ≤ v) (hsum : InRange values.sum)
    (hp : values.Perm values') (k : Nat) : InRange (values'.take k).sum := by
  have hnonneg' : ∀ v ∈ values', 0 ≤ v := fun v hv => hnonneg v (hp.mem_iff.2 hv)
  have hsplit : (values'.take k).sum + (values'.drop k).sum = values.sum := by
    rw [← List.sum_append, List.take_append_drop, hp.sum_eq]
  have htake : 0 ≤ (values'.take k).sum := List.sum_nonneg fun v hv => hnonneg' v (List.mem_of_mem_take hv)
  have hdrop : 0 ≤ (values'.drop k).sum := List.sum_nonneg fun v hv => hnonneg' v (List.mem_of_mem_drop hv)
  unfold InRange maxSafe at *
  omega

/-- Where no money is negative, rows in another order are folded to the same board. -/
theorem foldRetailerBoard_perm_nonneg {casesPerGroup : Int} {groups : List (PayerGroup C)}
    (hpos : ((rows.flatMap (·.cases)).map (·.position)).Nodup)
    (h : foldRetailerBoard T nfkd rows casesPerGroup = .ok groups) (hp : rows.Perm rows')
    (hnonneg : ∀ f ∈ moneyFields, ∀ row ∈ rows, 0 ≤ f row.totals) :
    foldRetailerBoard T nfkd rows' casesPerGroup = .ok groups := by
  obtain ⟨hlimit, hone, hadds, -⟩ := foldRetailerBoard_ok.1 h
  have hadds' : ∀ k ∈ keysOf T nfkd rows', Adds (members T nfkd rows' k) := fun k hk => by
    obtain ⟨hcounted, hsums⟩ := hadds k ((keysOf_perm hp).mem_iff.2 hk)
    have hms : ((members T nfkd rows k).map (·.totals)).Perm ((members T nfkd rows' k).map (·.totals)) :=
      (hp.filter _).map _
    refine ⟨fun t ht => hcounted t (hms.mem_iff.2 ht), fun f hf => ?_, fun f hf => ⟨fun t ht => ?_, ?_⟩⟩
    · rw [← (hms.map f).sum_eq]
      exact hsums.counts f hf
    · exact (hsums.money f hf).1 t (hms.mem_iff.2 ht)
    · have htotal := (hsums.money f hf).2 (((members T nfkd rows k).map (·.totals)).map f).length
      rw [List.take_length] at htotal
      refine inRange_runs (fun v hv => ?_) htotal (hms.map f)
      obtain ⟨t, ht, rfl⟩ := List.mem_map.1 hv
      obtain ⟨row, hrow, rfl⟩ := List.mem_map.1 ht
      exact hnonneg f hf row (GroupedSums.mem_rowsOf.1 hrow).1
  have hok := foldRetailerBoard_ok.2 ⟨hlimit, hone.perm hp, hadds', rfl⟩
  rcases foldRetailerBoard_perm hpos h hp with h' | ⟨v, h'⟩
  · exact h'
  · rw [h'] at hok
    cases hok

/-- A group is that of its rows: their figures added up, the first of their cases, and how many are left. -/
structure GroupsRows (limit : Nat) (rows : List (RawPayerGroup C)) (g : PayerGroup C) : Prop where
  some : rows ≠ []
  alone : g.kind ≠ .unmatched → rows.length = 1
  totals : g.totals = sumTotals (rows.map (·.totals))
  cases : LowestFirst limit (rows.flatMap (·.cases)) g.cases
  more : g.moreCases = max 0 ((rows.map (·.totals.listableCases)).sum - g.cases.length)
  left : (∀ row ∈ rows, (row.cases.length : Int) ≤ row.totals.listableCases) →
    g.cases.length + g.moreCases = (rows.map (·.totals.listableCases)).sum

theorem length_cases_le {rows : List (RawPayerGroup C)}
    (h : ∀ row ∈ rows, (row.cases.length : Int) ≤ row.totals.listableCases) :
    ((rows.flatMap (·.cases)).length : Int) ≤ (rows.map (·.totals.listableCases)).sum := by
  induction rows with
  | nil => simp
  | cons row rows ih =>
    rw [List.forall_mem_cons] at h
    have := ih h.2
    rw [List.flatMap_cons, List.length_append, List.map_cons, List.sum_cons]
    push_cast
    omega

theorem groupOf_rows {k : PayerGroupKind × Text} (hone : OneRowEach T nfkd rows)
    (hpos : ((rows.flatMap (·.cases)).map (·.position)).Nodup) (hk : k ∈ keysOf T nfkd rows) :
    GroupsRows limit (members T nfkd rows k) (groupOf limit (k, members T nfkd rows k)) := by
  have hlisted : LowestFirst limit ((members T nfkd rows k).flatMap (·.cases))
      (groupOf limit (k, members T nfkd rows k)).cases := placed_lowestFirst (nodup_positions hpos)
  have hsum : ∀ ms : List (RawPayerGroup C),
      (sumTotals (ms.map (·.totals))).listableCases = (ms.map (·.totals.listableCases)).sum := fun ms => by
    show ((ms.map (·.totals)).map (·.listableCases)).sum = _
    rw [List.map_map]
    rfl
  have hmore : (groupOf limit (k, members T nfkd rows k)).moreCases =
      max 0 (((members T nfkd rows k).map (·.totals.listableCases)).sum -
        (groupOf limit (k, members T nfkd rows k)).cases.length) := by
    rw [← hsum]
    rfl
  refine ⟨?_, fun hkind => ?_, rfl, hlisted, hmore, fun hall => ?_⟩
  · obtain ⟨row, hrow, hkey⟩ := mem_keysOf.1 hk
    exact List.ne_nil_of_mem (GroupedSums.mem_rowsOf.2 ⟨hrow, hkey⟩)
  · obtain ⟨row, hrow⟩ := members_single hone hk hkind
    rw [hrow, List.length_singleton]
  · obtain ⟨listed, left, -, hcases, hlength, -⟩ := hlisted
    have hle := length_cases_le hall
    rw [hmore, hcases, List.length_map, hlength]
    omega

/-- **The board conserves its rows.** Each is in exactly one group, which is that of its payer; the groups' figures, and
the board's, are the rows' added up; and the order of the rows changes nothing but whether a running sum of money, of
amounts some of which are negative, leaves the safe range. -/
theorem board_conserves_rows {casesPerGroup : Int} {groups : List (PayerGroup C)}
    (hpos : ((rows.flatMap (·.cases)).map (·.position)).Nodup)
    (h : foldRetailerBoard T nfkd rows casesPerGroup = .ok groups) :
    (groups.map (·.key)).Nodup ∧
    (∀ row ∈ rows, ∃! g, g ∈ groups ∧ groupKey T nfkd row = (g.kind, g.key)) ∧
    (∀ a b : RawPayerGroup C, groupKey T nfkd a = groupKey T nfkd b ↔ OnePayer T nfkd a b) ∧
    (∀ g ∈ groups, GroupsRows casesPerGroup.toNat (rows.filter fun row => groupKey T nfkd row = (g.kind, g.key)) g) ∧
    (retailerBoardTotals groups = .ok (sumTotals (rows.map (·.totals))) ∨
      retailerBoardTotals groups = .error .countOverflowed ∨
      ∃ v, retailerBoardTotals groups = .error (.money (.outOfRange v))) ∧
    ∀ rows', rows.Perm rows' →
      (foldRetailerBoard T nfkd rows' casesPerGroup = .ok groups ∨
        ∃ v, foldRetailerBoard T nfkd rows' casesPerGroup = .error (.money (.outOfRange v))) ∧
      ((∀ f ∈ moneyFields, ∀ row ∈ rows, 0 ≤ f row.totals) →
        foldRetailerBoard T nfkd rows' casesPerGroup = .ok groups) := by
  obtain ⟨-, hone, hadds, hgroups⟩ := foldRetailerBoard_ok.1 h
  have hsorted : groups.Perm (groupsOf T nfkd casesPerGroup.toNat rows) := by
    rw [hgroups]
    exact List.perm_insertionSort _ _
  have hnodup : (groups.map (·.key)).Nodup := (hsorted.map _).nodup_iff.2 nodup_keys_groupsOf
  refine ⟨hnodup, fun row hrow => ?_, fun a b => groupKey_eq_iff, fun g hg => ?_,
    retailerBoardTotals_groups hadds hsorted,
    fun rows' hp => ⟨foldRetailerBoard_perm hpos h hp, foldRetailerBoard_perm_nonneg hpos h hp⟩⟩
  · have hk : groupKey T nfkd row ∈ keysOf T nfkd rows := mem_keysOf.2 ⟨row, hrow, rfl⟩
    have hmem : groupOf casesPerGroup.toNat (groupKey T nfkd row, members T nfkd rows (groupKey T nfkd row)) ∈ groups :=
      hsorted.mem_iff.2 (List.mem_map_of_mem hk)
    refine ⟨_, ⟨hmem, rfl⟩, ?_⟩
    rintro g ⟨hg, hkey⟩
    exact List.inj_on_of_nodup_map hnodup hg hmem (congrArg Prod.snd hkey).symm
  · obtain ⟨k, hk, rfl⟩ := List.mem_map.1 (hsorted.mem_iff.1 hg)
    exact groupOf_rows hone hpos hk

end

/-! ## A board of one name -/

/-- A row of a printed name, of which only the dollars in dispute count. -/
def printedRow (name : Text) (inDisputeCents : Int) (cases : List (PlacedCase Nat)) : RawPayerGroup Nat where
  debtor := none
  printedName := some name
  caseCount := 1
  totals := {
    openCases := 1, closedCases := 0, declinedCases := 0, awaitingApprovalCases := 0, inDisputeCents,
    recoveredCents := 0, recoveredUnrecordedCases := 0, declinedCents := 0, atRiskCases := 0, atRiskCents := 0,
    oldestOpenDays := some 3, listableCases := 1 }
  cases

def syscoRows : List (RawPayerGroup Nat) :=
  [printedRow "Sysco".toList 700 [⟨2, 20⟩], printedRow "SYSCO".toList 300 [⟨1, 10⟩]]

def syscoGroup : PayerGroup Nat where
  kind := .unmatched
  key := "printed:sysco".toList
  name := some "SYSCO".toList
  debtorId := none
  printedNames := ["SYSCO".toList, "Sysco".toList]
  totals := {
    openCases := 2, closedCases := 0, declinedCases := 0, awaitingApprovalCases := 0, inDisputeCents := 1000,
    recoveredCents := 0, recoveredUnrecordedCases := 0, declinedCents := 0, atRiskCases := 0, atRiskCents := 0,
    oldestOpenDays := some 3, listableCases := 2 }
  cases := [10]
  moreCases := 1

theorem board_of_sysco : retailerBoardTotals [syscoGroup] = .ok (sumTotals (syscoRows.map (·.totals))) ∧
    foldRetailerBoard asciiCase id syscoRows.reverse 1 = .ok [syscoGroup] := by
  have hpos : ((syscoRows.flatMap (·.cases)).map (·.position)).Nodup := by decide
  have hfold : foldRetailerBoard asciiCase id syscoRows 1 = .ok [syscoGroup] := by decide +kernel
  obtain ⟨-, -, -, -, -, hperm⟩ := board_conserves_rows hpos hfold
  exact ⟨by decide +kernel, (hperm _ (List.reverse_perm _).symm).2 (by decide +kernel)⟩

/-- Three rows of one name, one of an amount below zero. -/
def signedRows : List (RawPayerGroup Nat) :=
  [printedRow "Sysco".toList (-1) [], printedRow "SYSCO".toList 1 [], printedRow "sysco".toList maxSafe []]

/-- Two names, whose dollars are safe only apart. -/
def overflowRows : List (RawPayerGroup Nat) := [printedRow "Sysco".toList maxSafe [], printedRow "Kroger".toList 1 []]

/-- A row of one listable case that lists two. -/
def crowdedRows : List (RawPayerGroup Nat) := [printedRow "Sysco".toList 300 [⟨1, 10⟩, ⟨2, 20⟩]]

def crowdedGroup : PayerGroup Nat :=
  { syscoGroup with
    name := some "Sysco".toList
    printedNames := ["Sysco".toList]
    totals := (printedRow "Sysco".toList 300 []).totals
    cases := [10, 20]
    moreCases := 0 }

/-- The board takes rows in one order and refuses them in another, takes groups whose totals it cannot add up, and says
that no case is left out where fewer are listable than are listed. -/
theorem conserves_not_always :
    (¬ ∀ rows rows' : List (RawPayerGroup Nat), ((rows.flatMap (·.cases)).map (·.position)).Nodup →
      (∃ groups, foldRetailerBoard asciiCase id rows 8 = .ok groups) → rows.Perm rows' →
      foldRetailerBoard asciiCase id rows' 8 = foldRetailerBoard asciiCase id rows 8) ∧
    (¬ ∀ (rows : List (RawPayerGroup Nat)) groups, ((rows.flatMap (·.cases)).map (·.position)).Nodup →
      foldRetailerBoard asciiCase id rows 8 = .ok groups →
      retailerBoardTotals groups = .ok (sumTotals (rows.map (·.totals)))) ∧
    ¬ ∀ (rows : List (RawPayerGroup Nat)) groups, ((rows.flatMap (·.cases)).map (·.position)).Nodup →
      foldRetailerBoard asciiCase id rows 8 = .ok groups → ∀ g ∈ groups, (g.cases.length : Int) + g.moreCases =
        ((rows.filter fun row => groupKey asciiCase id row = (g.kind, g.key)).map (·.totals.listableCases)).sum := by
  have hok : ∀ {rows : List (RawPayerGroup Nat)}, (foldRetailerBoard asciiCase id rows 8).toOption.isSome = true →
      ∃ groups, foldRetailerBoard asciiCase id rows 8 = .ok groups := by
    intro rows h
    cases hfold : foldRetailerBoard asciiCase id rows 8 with
    | error e =>
      rw [hfold] at h
      cases h
    | ok groups => exact ⟨groups, rfl⟩
  refine ⟨fun hall => ?_, fun hall => ?_, fun hall => ?_⟩
  · have hbad : foldRetailerBoard asciiCase id signedRows.reverse 8 =
        .error (.money (.outOfRange (maxSafe + 1))) := by decide +kernel
    obtain ⟨groups, hfold⟩ := @hok signedRows (by decide +kernel)
    have hsame := hall _ _ (by decide) ⟨groups, hfold⟩ (List.reverse_perm signedRows).symm
    rw [hbad, hfold] at hsame
    cases hsame
  · have hbad : (foldRetailerBoard asciiCase id overflowRows 8 >>= retailerBoardTotals) =
        .error (.money (.outOfRange (maxSafe + 1))) := by decide +kernel
    obtain ⟨groups, hfold⟩ := @hok overflowRows (by decide +kernel)
    have htotals := hall _ groups (by decide) hfold
    rw [hfold] at hbad
    cases htotals.symm.trans hbad
  · have hfold : foldRetailerBoard asciiCase id crowdedRows 8 = .ok [crowdedGroup] := by decide +kernel
    exact absurd (hall _ _ (by decide) hfold crowdedGroup (List.mem_singleton_self _)) (by decide +kernel)

end Recouple.Pipeline.Board
